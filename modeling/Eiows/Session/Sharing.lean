import Eiows.Session.StreamWebSocket
import Mathlib.Logic.Function.Basic

/-!
# Sharing a compression context

Sessions without context takeover share one `CompressionContext`. Every call leaves
its streams uninitialised or fresh, whichever way it ends, so no call can tell what
the calls before it were. The calls are modelled with their exceptions: an allocation
may fail anywhere.
-/

namespace Eiows

/-- Whether the allocation at the `n`th place of a call that may throw succeeds. -/
abbrev Allocator := ℕ → Bool

/-- How a call of `deflateMessage` ends. -/
inductive DeflateOutcome where
  | threw
  | refused
  | deflated (output : Bytes)

/-- The result of a call that has not thrown. -/
def DeflateOutcome.ofOption : Option Bytes → DeflateOutcome
  | none => .refused
  | some output => .deflated output

namespace Zlib

variable (Z : Zlib)

/-- What is assumed of zlib: a reset stream is a fresh one with its parameters. -/
structure ResetsFresh (windowBits : Z.Deflate → ℕ) : Prop where
  inflateReset : ∀ z z', Z.inflateReset z = some z' → Z.inflateInit = some z'
  deflateInit : ∀ bits z, Z.deflateInit bits = some z → windowBits z = bits
  deflate : ∀ z input room, windowBits (Z.deflate z input room).stream = windowBits z
  deflateReset : ∀ z z', Z.deflateReset z = some z' → Z.deflateInit (windowBits z) = some z'

/-- The loop of `CompressionContext::inflateMessage`, where `output.append` may throw:
the handler resets the stream and the result is `none`. -/
def inflateLoopThrowing (allocate : Allocator) (maxPayload n : ℕ) (z : Z.Inflate)
    (input output : Bytes) : Option InflateResult × Bytes × Option Z.Inflate :=
  if (Z.inflate z input zlibChunkSize).output ≠ [] ∧
      ¬(maxPayload ≠ 0 ∧
        maxPayload < output.length + (Z.inflate z input zlibChunkSize).output.length) ∧
      allocate n = false then
    (none, output, (Z.resetInflater (Z.inflate z input zlibChunkSize).stream).2)
  else
    match _h : Z.inflateStepWith zlibChunkSize maxPayload z input output with
    | .done result output stream => (some result, output, stream)
    | .more z' input' output' => inflateLoopThrowing allocate maxPayload (n + 1) z' input' output'
  termination_by Z.inflateMeasure z input
  decreasing_by exact Z.inflateStepWith_decreases _h

/-- `CompressionContext::inflateMessage` with its exceptions. The first two allocations
are those of `input`. -/
def inflateMessageThrowing (allocate : Allocator) (stream : Option Z.Inflate) (data : Bytes)
    (maxPayload : ℕ) (resetAfter : Bool) : Option InflateResult × Bytes × Option Z.Inflate :=
  match stream.or Z.inflateInit with
  | none => (some .internalError, [], none)
  | some z =>
    if unsignedMax - deflateTrailer.length < data.length then (some .internalError, [], some z)
    else if allocate 0 = false ∨ allocate 1 = false then (none, [], (Z.resetInflater (some z)).2)
    else
      match Z.inflateLoopThrowing allocate maxPayload 2 z (data ++ deflateTrailer) [] with
      | (some .success, output, stream) =>
        if resetAfter then
          match Z.resetInflater stream with
          | (true, stream) => (some .success, output, stream)
          | (false, stream) => (some .internalError, output, stream)
        else (some .success, output, stream)
      | failed => failed

/-- The loop of `CompressionContext::deflateMessage`, where `output.append` may throw. -/
def deflateLoopThrowing (allocate : Allocator) (n : ℕ) (z : Z.Deflate) (input output : Bytes) :
    DeflateOutcome × Z.Deflate :=
  match (Z.deflate z input zlibChunkSize).status with
  | .ok =>
    if allocate n = false then (.threw, (Z.deflate z input zlibChunkSize).stream)
    else if (Z.deflate z input zlibChunkSize).output.length = zlibChunkSize then
      deflateLoopThrowing allocate (n + 1) (Z.deflate z input zlibChunkSize).stream
        (input.drop (Z.deflate z input zlibChunkSize).consumed)
        (output ++ (Z.deflate z input zlibChunkSize).output)
    else
      (.deflated (output ++ (Z.deflate z input zlibChunkSize).output),
        (Z.deflate z input zlibChunkSize).stream)
  | _ => (.refused, (Z.deflate z input zlibChunkSize).stream)
  termination_by Z.deflateOwed z + Z.deflateExpansion * input.length
  decreasing_by
    obtain ⟨hle, hbound⟩ := Z.deflate_bounded z input zlibChunkSize
    have hexpand : Z.deflateExpansion *
          (input.drop (Z.deflate z input zlibChunkSize).consumed).length +
        Z.deflateExpansion * (Z.deflate z input zlibChunkSize).consumed =
          Z.deflateExpansion * input.length := by
      rw [← Nat.mul_add, List.length_drop, Nat.sub_add_cancel hle]
    have hchunk : 0 < zlibChunkSize := by decide
    omega

/-- `CompressionContext::deflateMessage` with its exceptions. -/
def deflateMessageThrowing (allocate : Allocator) (stream : Option (Z.Deflate × ℕ)) (data : Bytes)
    (windowBits : ℕ) (resetAfter : Bool) : DeflateOutcome × Option (Z.Deflate × ℕ) :=
  match Z.ensureDeflater stream windowBits with
  | none => (.refused, none)
  | some z =>
    if unsignedMax < data.length then (.refused, some (z, windowBits))
    else
      match Z.deflateLoopThrowing allocate 0 z data [] with
      | (.threw, z) => (.threw, (Z.resetDeflater z windowBits).2)
      | (.refused, z) => (.refused, (Z.resetDeflater z windowBits).2)
      | (.deflated output, z) =>
        if output.length < deflateTrailer.length ∨
            output.drop (output.length - deflateTrailer.length) ≠ deflateTrailer then
          (.refused, (Z.resetDeflater z windowBits).2)
        else
          let message := output.take (output.length - deflateTrailer.length)
          if resetAfter then
            match Z.resetDeflater z windowBits with
            | (true, stream) => (.deflated message, stream)
            | (false, stream) => (.refused, stream)
          else (.deflated message, some (z, windowBits))

/-- Where every allocation succeeds, the loop is the one without exceptions. -/
theorem inflateLoopThrowing_of_allocated {allocate : Allocator} (hallocate : ∀ n, allocate n = true)
    (maxPayload n : ℕ) (z : Z.Inflate) (input output : Bytes) :
    Z.inflateLoopThrowing allocate maxPayload n z input output =
      (some (Z.inflateLoopWith zlibChunkSize maxPayload z input output).1,
        (Z.inflateLoopWith zlibChunkSize maxPayload z input output).2) := by
  fun_induction Z.inflateLoopWith zlibChunkSize maxPayload z input output generalizing n with
  | case1 z input output result output' stream hstep =>
    rw [inflateLoopThrowing, if_neg (by simp [hallocate])]
    split <;> simp_all
  | case2 z input output z' input' output' hstep ih =>
    rw [inflateLoopThrowing, if_neg (by simp [hallocate])]
    split <;> simp_all

/-- Where every allocation succeeds, `inflateMessage` is the one without exceptions. -/
theorem inflateMessageThrowing_of_allocated {allocate : Allocator}
    (hallocate : ∀ n, allocate n = true) (stream : Option Z.Inflate) (data : Bytes)
    (maxPayload : ℕ) (resetAfter : Bool) :
    Z.inflateMessageThrowing allocate stream data maxPayload resetAfter =
      (some (Z.inflateMessage stream data maxPayload resetAfter).1,
        (Z.inflateMessage stream data maxPayload resetAfter).2) := by
  unfold inflateMessageThrowing inflateMessage inflateMessageWith resetAfterMessage
  cases stream.or Z.inflateInit with
  | none => rfl
  | some z =>
    simp only [hallocate, Bool.true_eq_false, or_self, if_false,
      Z.inflateLoopThrowing_of_allocated hallocate]
    by_cases hlong : unsignedMax - deflateTrailer.length < data.length
    · rw [if_pos hlong, if_pos hlong]
    · rw [if_neg hlong, if_neg hlong]
      rcases Z.inflateLoopWith zlibChunkSize maxPayload z (data ++ deflateTrailer) [] with
        ⟨result, output, stream'⟩
      cases result with
      | success =>
        cases resetAfter with
        | false => rfl
        | true =>
          rcases hreset : Z.resetInflater stream' with ⟨ok, stream''⟩
          simp only [hreset]
          cases ok <;> rfl
      | invalidData => rfl
      | payloadTooLarge => rfl
      | internalError => rfl

theorem deflateLoopThrowing_of_allocated {allocate : Allocator} (hallocate : ∀ n, allocate n = true)
    (n : ℕ) (z : Z.Deflate) (input output : Bytes) :
    Z.deflateLoopThrowing allocate n z input output =
      (.ofOption (Z.deflateLoop z input output).1, (Z.deflateLoop z input output).2) := by
  fun_induction Z.deflateLoop z input output generalizing n with
  | case1 z input output hstatus hfull ih =>
    rw [deflateLoopThrowing]
    simp only [hstatus, hallocate, Bool.true_eq_false, if_false, if_pos hfull]
    exact ih (n + 1)
  | case2 z input output hstatus hroom =>
    rw [deflateLoopThrowing]
    simp only [hstatus, hallocate, Bool.true_eq_false, if_false, if_neg hroom]
    rfl
  | case3 z input output hstatus =>
    rw [deflateLoopThrowing]
    split
    · rename_i hok
      exact absurd hok hstatus
    · rfl

/-- Where every allocation succeeds, `deflateMessage` is the one without exceptions. -/
theorem deflateMessageThrowing_of_allocated {allocate : Allocator}
    (hallocate : ∀ n, allocate n = true) (stream : Option (Z.Deflate × ℕ)) (data : Bytes)
    (windowBits : ℕ) (resetAfter : Bool) :
    Z.deflateMessageThrowing allocate stream data windowBits resetAfter =
      (.ofOption (Z.deflateMessage stream data windowBits resetAfter).1,
        (Z.deflateMessage stream data windowBits resetAfter).2) := by
  unfold deflateMessageThrowing deflateMessage
  cases Z.ensureDeflater stream windowBits with
  | none => rfl
  | some z =>
    simp only [Z.deflateLoopThrowing_of_allocated hallocate]
    by_cases hlong : unsignedMax < data.length
    · rw [if_pos hlong, if_pos hlong]
      rfl
    · rw [if_neg hlong, if_neg hlong]
      rcases Z.deflateLoop z data [] with ⟨result, z'⟩
      cases result with
      | none => rfl
      | some output =>
        simp only [DeflateOutcome.ofOption]
        split_ifs
        · rfl
        · rcases Z.resetDeflater z' windowBits with ⟨ok, stream'⟩
          cases ok <;> rfl
        · rfl

section Fresh

variable {Z} {windowBits : Z.Deflate → ℕ}

/-- An inflate stream that is uninitialised or fresh. -/
def FreshInflater (stream : Option Z.Inflate) : Prop := ∀ z, stream = some z → Z.inflateInit = some z

/-- A deflate stream that is uninitialised or fresh. -/
def FreshDeflater (stream : Option (Z.Deflate × ℕ)) : Prop :=
  ∀ z bits, stream = some (z, bits) → Z.deflateInit bits = some z

theorem FreshInflater.ensure {stream : Option Z.Inflate} (h : FreshInflater stream) :
    stream.or Z.inflateInit = Option.or none Z.inflateInit := by
  cases stream with
  | none => rfl
  | some z => exact (h z rfl).symm

theorem FreshDeflater.ensure {stream : Option (Z.Deflate × ℕ)} (h : FreshDeflater stream)
    (bits : ℕ) : Z.ensureDeflater stream bits = Z.ensureDeflater none bits := by
  cases stream with
  | none => rfl
  | some stream =>
    obtain ⟨z, bits'⟩ := stream
    simp only [ensureDeflater]
    split_ifs with hbits
    · rw [← hbits]
      exact (h z bits' rfl).symm
    · rfl

/-- A fresh stream gives what an uninitialised one gives. -/
theorem FreshInflater.inflateMessage {stream : Option Z.Inflate} (h : FreshInflater stream)
    (allocate : Allocator) (data : Bytes) (maxPayload : ℕ) (resetAfter : Bool) :
    Z.inflateMessageThrowing allocate stream data maxPayload resetAfter =
      Z.inflateMessageThrowing allocate none data maxPayload resetAfter := by
  rw [inflateMessageThrowing, h.ensure]
  rfl

theorem FreshDeflater.deflateMessage {stream : Option (Z.Deflate × ℕ)} (h : FreshDeflater stream)
    (allocate : Allocator) (data : Bytes) (bits : ℕ) (resetAfter : Bool) :
    Z.deflateMessageThrowing allocate stream data bits resetAfter =
      Z.deflateMessageThrowing allocate none data bits resetAfter := by
  rw [deflateMessageThrowing, h.ensure]
  rfl

/-- A reset leaves a fresh stream, or none. -/
theorem ResetsFresh.resetInflater (hz : Z.ResetsFresh windowBits) (stream : Option Z.Inflate) :
    FreshInflater (Z.resetInflater stream).2 := by
  intro z hz'
  unfold Zlib.resetInflater at hz'
  split at hz'
  · cases hz'
  · split at hz'
    · rename_i hreset
      cases hz'
      exact hz.inflateReset _ _ hreset
    · cases hz'

theorem ResetsFresh.resetDeflater (hz : Z.ResetsFresh windowBits) {z : Z.Deflate} {bits : ℕ}
    (hbits : windowBits z = bits) : FreshDeflater (Z.resetDeflater z bits).2 := by
  intro z' bits' hz'
  unfold Zlib.resetDeflater at hz'
  split at hz'
  · rename_i hreset
    cases hz'
    rw [← hbits]
    exact hz.deflateReset _ _ hreset
  · cases hz'

/-- The loop succeeds, or it has reset the stream. -/
theorem ResetsFresh.inflateLoop (hz : Z.ResetsFresh windowBits) (allocate : Allocator)
    (maxPayload n : ℕ) (z : Z.Inflate) (input output : Bytes) :
    (Z.inflateLoopThrowing allocate maxPayload n z input output).1 = some .success ∨
      FreshInflater (Z.inflateLoopThrowing allocate maxPayload n z input output).2.2 := by
  fun_induction Z.inflateLoopThrowing allocate maxPayload n z input output with
  | case1 n z input output hthrown => exact .inr (hz.resetInflater _)
  | case2 n z input output hallocated result output' stream hstep =>
    unfold Zlib.inflateStepWith at hstep
    simp only at hstep
    split at hstep
    · cases hstep
      exact .inr (hz.resetInflater _)
    · split at hstep
      · cases hstep
        exact .inr (hz.resetInflater _)
      · split at hstep
        · cases hstep
        · cases hstep
          exact .inr (hz.resetInflater _)
      · split_ifs at hstep
        · cases hstep
          exact .inl rfl
        · cases hstep
          exact .inr (hz.resetInflater _)
  | case3 n z input output hallocated z' input' output' hstep ih => exact ih

/-- A call that resets leaves a fresh stream, whichever way it ends. -/
theorem ResetsFresh.inflateMessage (hz : Z.ResetsFresh windowBits) (allocate : Allocator)
    {stream : Option Z.Inflate} (h : FreshInflater stream) (data : Bytes) (maxPayload : ℕ) :
    FreshInflater (Z.inflateMessageThrowing allocate stream data maxPayload true).2.2 := by
  rw [h.inflateMessage, inflateMessageThrowing]
  cases hinit : Z.inflateInit with
  | none =>
    intro z hz
    cases hz
  | some z =>
    simp only [Option.none_or]
    split_ifs
    · intro z' hz'
      cases hz'
      exact hinit
    · exact hz.resetInflater _
    · have hloop := hz.inflateLoop allocate maxPayload 2 z (data ++ deflateTrailer) []
      generalize Z.inflateLoopThrowing allocate maxPayload 2 z (data ++ deflateTrailer) [] = out
        at hloop ⊢
      obtain ⟨result, output, stream'⟩ := out
      have hreset := hz.resetInflater stream'
      cases result with
      | none => exact hloop.resolve_left (fun h => by cases h)
      | some result =>
        cases result with
        | success =>
          simp only
          split <;> rename_i hresult <;> simpa only [hresult] using hreset
        | invalidData => exact hloop.resolve_left (fun h => by cases h)
        | payloadTooLarge => exact hloop.resolve_left (fun h => by cases h)
        | internalError => exact hloop.resolve_left (fun h => by cases h)

theorem ResetsFresh.deflateLoop (hz : Z.ResetsFresh windowBits) (allocate : Allocator) (n : ℕ)
    (z : Z.Deflate) (input output : Bytes) :
    windowBits (Z.deflateLoopThrowing allocate n z input output).2 = windowBits z := by
  fun_induction Z.deflateLoopThrowing allocate n z input output with
  | case1 n z input output hstatus hthrown => exact hz.deflate z input _
  | case2 n z input output hstatus hallocated hfull ih => exact ih.trans (hz.deflate z input _)
  | case3 n z input output hstatus hallocated hroom => exact hz.deflate z input _
  | case4 n z input output hstatus => exact hz.deflate z input _

theorem ResetsFresh.deflateMessage (hz : Z.ResetsFresh windowBits) (allocate : Allocator)
    {stream : Option (Z.Deflate × ℕ)} (h : FreshDeflater stream) (data : Bytes) (bits : ℕ) :
    FreshDeflater (Z.deflateMessageThrowing allocate stream data bits true).2 := by
  rw [h.deflateMessage, deflateMessageThrowing]
  cases hinit : Z.ensureDeflater none bits with
  | none =>
    intro z bits hz
    cases hz
  | some z =>
    have hinit : Z.deflateInit bits = some z := hinit
    simp only
    split_ifs
    · intro z' bits' hz'
      cases hz'
      exact hinit
    · have hloop := hz.deflateLoop allocate 0 z data []
      rw [hz.deflateInit bits z hinit] at hloop
      generalize Z.deflateLoopThrowing allocate 0 z data [] = out at hloop ⊢
      obtain ⟨outcome, z'⟩ := out
      have hreset := hz.resetDeflater hloop
      cases outcome with
      | threw => exact hreset
      | refused => exact hreset
      | deflated output =>
        simp only
        split_ifs
        · exact hreset
        · split <;> rename_i hresult <;> simpa only [hresult] using hreset

end Fresh

end Zlib

namespace Session

variable {Z : Zlib}

/-- `StreamWebSocket::inflateMessage` with its exceptions. -/
def inflateMessageThrowing (allocate : Allocator) (data : Bytes) (s : Session Z) :
    Option InflateResult × Bytes × Session Z :=
  let noTakeover := hasOption s.extensionOptions CLIENT_NO_CONTEXT_TAKEOVER
  match if noTakeover then s.sharedCompressionContext else s.privateCompressionContext with
  | none => (some .internalError, [], s)
  | some context =>
    let r := Z.inflateMessageThrowing allocate context.inflationStream data s.maxPayload noTakeover
    let context := { context with inflationStream := r.2.2 }
    (r.1, r.2.1,
      if noTakeover then { s with sharedCompressionContext := some context }
      else { s with privateCompressionContext := some context })

/-- `StreamWebSocket::deflateMessage` with its exceptions. -/
def deflateMessageThrowing (allocate : Allocator) (data : Bytes) (s : Session Z) :
    DeflateOutcome × Session Z :=
  let noTakeover := hasOption s.extensionOptions SERVER_NO_CONTEXT_TAKEOVER
  match if noTakeover then s.sharedCompressionContext else s.privateCompressionContext with
  | none => (.refused, s)
  | some context =>
    let r := Z.deflateMessageThrowing allocate context.deflationStream data s.serverMaxWindowBits
      noTakeover
    let context := { context with deflationStream := r.2 }
    (r.1,
      if noTakeover then { s with sharedCompressionContext := some context }
      else { s with privateCompressionContext := some context })

/-- Where every allocation succeeds, these are the calls without exceptions. -/
theorem inflateMessageThrowing_of_allocated {allocate : Allocator}
    (hallocate : ∀ n, allocate n = true) (data : Bytes) (s : Session Z) :
    s.inflateMessageThrowing allocate data =
      (some (s.inflateMessage data).1, (s.inflateMessage data).2) := by
  simp only [inflateMessageThrowing, inflateMessage,
    Z.inflateMessageThrowing_of_allocated hallocate]
  cases (if hasOption s.extensionOptions CLIENT_NO_CONTEXT_TAKEOVER = true
    then s.sharedCompressionContext else s.privateCompressionContext) with
  | none => rfl
  | some context => rfl

@[inherit_doc inflateMessageThrowing_of_allocated]
theorem deflateMessageThrowing_of_allocated {allocate : Allocator}
    (hallocate : ∀ n, allocate n = true) (data : Bytes) (s : Session Z) :
    s.deflateMessageThrowing allocate data =
      (.ofOption (s.deflateMessage data).1, (s.deflateMessage data).2) := by
  simp only [deflateMessageThrowing, deflateMessage,
    Z.deflateMessageThrowing_of_allocated hallocate]
  cases (if hasOption s.extensionOptions SERVER_NO_CONTEXT_TAKEOVER = true
    then s.sharedCompressionContext else s.privateCompressionContext) with
  | none => rfl
  | some context => rfl

end Session

/-- A call of a session that compresses or decompresses a message. -/
inductive CompressionCall where
  | inflate (data : Bytes) (allocate : Allocator)
  | deflate (data : Bytes) (allocate : Allocator)

/-- What such a call gives; `none` for an exception. -/
inductive CompressionResult where
  | inflated (result : Option InflateResult) (output : Bytes)
  | deflated (outcome : DeflateOutcome)

/-- The session has negotiated no context takeover in the direction of the call. -/
def CompressionCall.noTakeover {Z : Zlib} (s : Session Z) : CompressionCall → Bool
  | .inflate .. => hasOption s.extensionOptions CLIENT_NO_CONTEXT_TAKEOVER
  | .deflate .. => hasOption s.extensionOptions SERVER_NO_CONTEXT_TAKEOVER

/-- Sessions that share one `CompressionContext`. -/
structure Sharing (Z : Zlib) (ι : Type) where
  shared : CompressionContext Z
  sessions : ι → Session Z

namespace Sharing

variable {Z : Zlib} {ι : Type}

/-- A session, with its pointer to the shared context followed. -/
def session (sharing : Sharing Z ι) (i : ι) : Session Z :=
  { sharing.sessions i with sharedCompressionContext := some sharing.shared }

variable [DecidableEq ι]

/-- The sessions and the context after a call has left session `i` as `s`. -/
def store (sharing : Sharing Z ι) (i : ι) (s : Session Z) : Sharing Z ι where
  shared := s.sharedCompressionContext.getD sharing.shared
  sessions := Function.update sharing.sessions i s

/-- One call of session `i`. -/
def respond (sharing : Sharing Z ι) (i : ι) : CompressionCall → CompressionResult × Sharing Z ι
  | .inflate data allocate =>
    let r := (sharing.session i).inflateMessageThrowing allocate data
    (.inflated r.1 r.2.1, sharing.store i r.2.2)
  | .deflate data allocate =>
    let r := (sharing.session i).deflateMessageThrowing allocate data
    (.deflated r.1, sharing.store i r.2)

/-- The sessions and the context after a list of calls. -/
def after (sharing : Sharing Z ι) : List (ι × CompressionCall) → Sharing Z ι
  | [] => sharing
  | (i, call) :: rest => (sharing.respond i call).2.after rest

/-- The shared streams are uninitialised or fresh. -/
structure Clean (sharing : Sharing Z ι) : Prop where
  inflater : Zlib.FreshInflater sharing.shared.inflationStream
  deflater : Zlib.FreshDeflater sharing.shared.deflationStream

/-- A call changes neither the options nor the limits of a session. -/
theorem respond_options (sharing : Sharing Z ι) (i j : ι) (call : CompressionCall) :
    ((sharing.respond i call).2.sessions j).extensionOptions =
      (sharing.sessions j).extensionOptions := by
  have hstore : ∀ s : Session Z, s.extensionOptions = (sharing.sessions i).extensionOptions →
      ((sharing.store i s).sessions j).extensionOptions =
        (sharing.sessions j).extensionOptions := by
    intro s hs
    simp only [store, Function.update_apply]
    split_ifs with hj
    · rw [hj, hs]
    · rfl
  cases call with
  | inflate data allocate =>
    apply hstore
    simp only [Session.inflateMessageThrowing]
    split
    · rfl
    · split_ifs <;> rfl
  | deflate data allocate =>
    apply hstore
    simp only [Session.deflateMessageThrowing]
    split
    · rfl
    · split_ifs <;> rfl

theorem after_options (sharing : Sharing Z ι) (calls : List (ι × CompressionCall)) (j : ι) :
    ((sharing.after calls).sessions j).extensionOptions =
      (sharing.sessions j).extensionOptions := by
  induction calls generalizing sharing with
  | nil => rfl
  | cons first rest ih => exact (ih _).trans (respond_options sharing first.1 j first.2)

/-- With context takeover the private context is used, and the shared one left alone. -/
theorem respond_private (sharing : Sharing Z ι) (i : ι) (call : CompressionCall)
    (htakeover : call.noTakeover (sharing.sessions i) = false) (context : CompressionContext Z) :
    (({ sharing with shared := context } : Sharing Z ι).respond i call).1 =
        (sharing.respond i call).1 ∧
      (({ sharing with shared := context } : Sharing Z ι).respond i call).2.shared = context := by
  cases call with
  | inflate data allocate =>
    have hoption : hasOption (sharing.sessions i).extensionOptions CLIENT_NO_CONTEXT_TAKEOVER =
        false := htakeover
    simp only [respond, session, Session.inflateMessageThrowing, hoption, Bool.false_eq_true,
      if_false]
    cases (sharing.sessions i).privateCompressionContext with
    | none => exact ⟨rfl, rfl⟩
    | some own => exact ⟨rfl, rfl⟩
  | deflate data allocate =>
    have hoption : hasOption (sharing.sessions i).extensionOptions SERVER_NO_CONTEXT_TAKEOVER =
        false := htakeover
    simp only [respond, session, Session.deflateMessageThrowing, hoption, Bool.false_eq_true,
      if_false]
    cases (sharing.sessions i).privateCompressionContext with
    | none => exact ⟨rfl, rfl⟩
    | some own => exact ⟨rfl, rfl⟩

/-- Without context takeover a clean context gives what a new one gives. -/
theorem respond_shared {sharing : Sharing Z ι} (h : sharing.Clean) {i : ι} {call : CompressionCall}
    (hshared : call.noTakeover (sharing.sessions i) = true) :
    (sharing.respond i call).1 =
      (({ sharing with shared := {} } : Sharing Z ι).respond i call).1 := by
  cases call with
  | inflate data allocate =>
    have hoption : hasOption (sharing.sessions i).extensionOptions CLIENT_NO_CONTEXT_TAKEOVER =
        true := hshared
    simp only [respond, session, Session.inflateMessageThrowing, hoption, if_true]
    rw [h.inflater.inflateMessage]
  | deflate data allocate =>
    have hoption : hasOption (sharing.sessions i).extensionOptions SERVER_NO_CONTEXT_TAKEOVER =
        true := hshared
    simp only [respond, session, Session.deflateMessageThrowing, hoption, if_true]
    rw [h.deflater.deflateMessage]

/-- Every call leaves the shared streams clean. -/
theorem Clean.respond {windowBits : Z.Deflate → ℕ} (hz : Z.ResetsFresh windowBits)
    {sharing : Sharing Z ι} (h : sharing.Clean) (i : ι) (call : CompressionCall) :
    (sharing.respond i call).2.Clean := by
  cases hshared : call.noTakeover (sharing.sessions i) with
  | false =>
    have hsame := (respond_private sharing i call hshared sharing.shared).2
    constructor
    · rw [hsame]
      exact h.inflater
    · rw [hsame]
      exact h.deflater
  | true =>
    cases call with
    | inflate data allocate =>
      have hoption : hasOption (sharing.sessions i).extensionOptions CLIENT_NO_CONTEXT_TAKEOVER =
          true := hshared
      simp only [Sharing.respond, session, Session.inflateMessageThrowing, hoption, if_true]
      exact ⟨hz.inflateMessage allocate h.inflater data _, h.deflater⟩
    | deflate data allocate =>
      have hoption : hasOption (sharing.sessions i).extensionOptions SERVER_NO_CONTEXT_TAKEOVER =
          true := hshared
      simp only [Sharing.respond, session, Session.deflateMessageThrowing, hoption, if_true]
      exact ⟨h.inflater, hz.deflateMessage allocate h.deflater data _⟩

theorem Clean.after {windowBits : Z.Deflate → ℕ} (hz : Z.ResetsFresh windowBits)
    {sharing : Sharing Z ι} (h : sharing.Clean) (calls : List (ι × CompressionCall)) :
    (sharing.after calls).Clean := by
  induction calls generalizing sharing with
  | nil => exact h
  | cons first rest ih => exact ih (h.respond hz first.1 first.2)

end Sharing

/-- Sessions that share a context do not influence each other. After any calls of any
sessions, failed or not, a call without context takeover gives what it would give on a
new context, and a call with context takeover neither reads nor changes the shared one. -/
theorem shared_context_independent {Z : Zlib} {ι : Type} [DecidableEq ι]
    (windowBits : Z.Deflate → ℕ) (hz : Z.ResetsFresh windowBits) (sessions : ι → Session Z)
    (calls : List (ι × CompressionCall)) (i : ι) (call : CompressionCall) :
    let sharing := (Sharing.mk {} sessions).after calls
    (call.noTakeover (sessions i) = true →
      (sharing.respond i call).1 =
        (({ sharing with shared := {} } : Sharing Z ι).respond i call).1) ∧
    (call.noTakeover (sessions i) = false → ∀ context,
      (({ sharing with shared := context } : Sharing Z ι).respond i call).1 =
          (sharing.respond i call).1 ∧
        (({ sharing with shared := context } : Sharing Z ι).respond i call).2.shared = context) := by
  intro sharing
  have hfresh : (Sharing.mk {} sessions).Clean := by
    constructor
    · intro z h
      cases h
    · intro z bits h
      cases h
  have hclean : sharing.Clean := hfresh.after hz calls
  have hoptions : (sharing.sessions i).extensionOptions = (sessions i).extensionOptions :=
    Sharing.after_options _ calls i
  have htakeover : call.noTakeover (sharing.sessions i) = call.noTakeover (sessions i) := by
    cases call <;> simp only [CompressionCall.noTakeover, hoptions]
  constructor
  · intro hshared
    exact Sharing.respond_shared hclean (htakeover.trans hshared)
  · intro hprivate context
    exact Sharing.respond_private sharing i call (htakeover.trans hprivate) context

/-- A reset of the sample stream is its initial state. -/
theorem Zlib.sample_resetsFresh : Zlib.sample.ResetsFresh fun _ => 15 where
  inflateReset := by
    intro z z' h
    exact h
  deflateInit := by
    intro bits z h
    cases h
  deflate := fun _ _ _ => rfl
  deflateReset := by
    intro z z' h
    cases h

/-- One session inflates a letter and another one invalid data, before the first inflates
its letter again. -/
theorem shared_context_independent_letter :
    let letter := CompressionCall.inflate [0x4a, 0x04, 0x00] fun _ => true
    let sessions : Bool → Session Zlib.sample := fun i =>
      Session.create (PERMESSAGE_DEFLATE ||| CLIENT_NO_CONTEXT_TAKEOVER) 15 (if i then 16 else 0)
        none
    let sharing := (Sharing.mk {} sessions).after
      [(true, letter), (false, .inflate [0xff] fun _ => true)]
    (sharing.respond true letter).1 =
      (({ sharing with shared := {} } : Sharing Zlib.sample Bool).respond true letter).1 := by
  intro letter sessions sharing
  have hdeflate : hasOption (PERMESSAGE_DEFLATE ||| CLIENT_NO_CONTEXT_TAKEOVER)
      PERMESSAGE_DEFLATE = true := by decide
  have hshared : letter.noTakeover (sessions true) = true := by
    simp only [letter, sessions, CompressionCall.noTakeover, Session.create, if_pos hdeflate]
    decide
  exact (shared_context_independent (fun _ => 15) Zlib.sample_resetsFresh sessions
    [(true, letter), (false, .inflate [0xff] fun _ => true)] true letter).1 hshared

end Eiows
