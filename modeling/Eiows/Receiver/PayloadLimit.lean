import Eiows.Receiver.Closing
import Eiows.Session.Calls

/-!
# The payload limit

What `maxPayload` bounds: the payload of every MESSAGE event, and the fragment
buffer, which also takes the parts of a control frame. The parser and the session
enforce the limit together, so the invariant speaks of both.
-/

namespace Eiows

variable {Z : Zlib}

theorem payloadLimit_le {maxPayload : ℕ} (h : maxPayload ≠ 0) : payloadLimit maxPayload ≤ maxPayload := by
  rw [payloadLimit, if_neg h]
  exact min_le_left _ _

namespace Zlib

variable (Z)

/-- The output grows by what `inflate` stored, within the limit. -/
theorem inflateStepWith_limited {chunkSize maxPayload : ℕ} {z : Z.Inflate} {input output : Bytes}
    (hoversize : ¬((Z.inflate z input chunkSize).output ≠ [] ∧ maxPayload ≠ 0 ∧
      maxPayload < output.length + (Z.inflate z input chunkSize).output.length)) :
    Z.inflateStepWith chunkSize maxPayload z input output =
        Z.inflateStepWith chunkSize 0 z input output ∧
      ((∃ result stream, Z.inflateStepWith chunkSize maxPayload z input output =
          .done result (output ++ (Z.inflate z input chunkSize).output) stream) ∨
        ∃ z' input', Z.inflateStepWith chunkSize maxPayload z input output =
          .more z' input' (output ++ (Z.inflate z input chunkSize).output)) := by
  have hunlimited : ¬((Z.inflate z input chunkSize).output ≠ [] ∧ 0 ≠ 0 ∧
      0 < output.length + (Z.inflate z input chunkSize).output.length) := by simp
  unfold inflateStepWith
  simp only
  rw [if_neg hoversize, if_neg hunlimited]
  refine ⟨rfl, ?_⟩
  split
  · exact .inl ⟨_, _, rfl⟩
  · split
    · exact .inr ⟨_, _, rfl⟩
    · exact .inl ⟨_, _, rfl⟩
  · split_ifs
    · exact .inl ⟨_, _, rfl⟩
    · exact .inl ⟨_, _, rfl⟩
    · exact .inr ⟨_, _, rfl⟩

theorem inflateStepWith_unlimited (chunkSize : ℕ) (z : Z.Inflate) (input output : Bytes) :
    (∃ result stream, Z.inflateStepWith chunkSize 0 z input output =
      .done result (output ++ (Z.inflate z input chunkSize).output) stream) ∨
      ∃ z' input', Z.inflateStepWith chunkSize 0 z input output =
        .more z' input' (output ++ (Z.inflate z input chunkSize).output) :=
  (Z.inflateStepWith_limited (by simp)).2

theorem inflateStepWith_oversize {chunkSize maxPayload : ℕ} {z : Z.Inflate} {input output : Bytes}
    (hoversize : (Z.inflate z input chunkSize).output ≠ [] ∧ maxPayload ≠ 0 ∧
      maxPayload < output.length + (Z.inflate z input chunkSize).output.length) :
    Z.inflateStepWith chunkSize maxPayload z input output = .done .payloadTooLarge output
      (Z.resetInflater (Z.inflate z input chunkSize).stream).2 := by
  unfold inflateStepWith
  simp only
  rw [if_pos hoversize]

/-- A successful result respects the limit. -/
theorem inflateLoopWith_length {chunkSize maxPayload : ℕ} (hlimited : maxPayload ≠ 0) (z : Z.Inflate)
    (input output : Bytes) (houtput : output.length ≤ maxPayload)
    (hsuccess : (Z.inflateLoopWith chunkSize maxPayload z input output).1 = .success) :
    (Z.inflateLoopWith chunkSize maxPayload z input output).2.1.length ≤ maxPayload := by
  fun_induction Z.inflateLoopWith chunkSize maxPayload z input output with
  | case1 z input output result output' stream hstep =>
    by_cases hoversize : (Z.inflate z input chunkSize).output ≠ [] ∧ maxPayload ≠ 0 ∧
        maxPayload < output.length + (Z.inflate z input chunkSize).output.length
    · rw [Z.inflateStepWith_oversize hoversize] at hstep
      cases hstep
      cases hsuccess
    · have hgrown : (output ++ (Z.inflate z input chunkSize).output).length ≤ maxPayload := by
        rw [List.length_append]
        by_cases hempty : (Z.inflate z input chunkSize).output = []
        · rw [hempty]
          exact houtput
        · by_contra hgreater
          exact hoversize ⟨hempty, hlimited, by omega⟩
      obtain ⟨-, ⟨result', stream', hdone⟩ | ⟨z', input', hmore⟩⟩ := Z.inflateStepWith_limited hoversize
      · rw [hdone] at hstep
        cases hstep
        exact hgrown
      · rw [hmore] at hstep
        cases hstep
  | case2 z input output z' input' output' hstep ih =>
    apply ih _ hsuccess
    by_cases hoversize : (Z.inflate z input chunkSize).output ≠ [] ∧ maxPayload ≠ 0 ∧
        maxPayload < output.length + (Z.inflate z input chunkSize).output.length
    · rw [Z.inflateStepWith_oversize hoversize] at hstep
      cases hstep
    · obtain ⟨-, rfl, -⟩ := Z.inflateStepWith_more hstep
      rw [List.length_append]
      by_cases hempty : (Z.inflate z input chunkSize).output = []
      · rw [hempty]
        exact houtput
      · by_contra hgreater
        exact hoversize ⟨hempty, hlimited, by omega⟩

/-- Without a limit the output only grows. -/
theorem inflateLoopWith_unlimited_length (chunkSize : ℕ) (z : Z.Inflate) (input output : Bytes) :
    output.length ≤ (Z.inflateLoopWith chunkSize 0 z input output).2.1.length := by
  fun_induction Z.inflateLoopWith chunkSize 0 z input output with
  | case1 z input output result output' stream hstep =>
    obtain ⟨result', stream', hdone⟩ | ⟨z', input', hmore⟩ :=
      Z.inflateStepWith_unlimited chunkSize z input output
    · rw [hdone] at hstep
      cases hstep
      simp
    · rw [hmore] at hstep
      cases hstep
  | case2 z input output z' input' output' hstep ih =>
    obtain ⟨-, rfl, -⟩ := Z.inflateStepWith_more hstep
    rw [List.length_append] at ih
    omega

theorem inflateLoopWith_unlimited (chunkSize : ℕ) (z : Z.Inflate) (input output : Bytes) :
    (Z.inflateLoopWith chunkSize 0 z input output).1 ≠ .payloadTooLarge := by
  fun_induction Z.inflateLoopWith chunkSize 0 z input output with
  | case1 z input output result output' stream hstep =>
    rintro rfl
    unfold inflateStepWith at hstep
    simp only [ne_eq, not_true_eq_false, false_and, and_false, if_false] at hstep
    split at hstep
    · cases hstep
    · split at hstep <;> cases hstep
    · split_ifs at hstep <;> cases hstep
  | case2 z input output z' input' output' hstep ih => exact ih

/-- Only an output longer than the limit is too large. -/
theorem inflateLoopWith_tooLarge {chunkSize maxPayload : ℕ} (z : Z.Inflate) (input output : Bytes)
    (hlarge : (Z.inflateLoopWith chunkSize maxPayload z input output).1 = .payloadTooLarge) :
    maxPayload ≠ 0 ∧ maxPayload < (Z.inflateLoopWith chunkSize 0 z input output).2.1.length := by
  fun_induction Z.inflateLoopWith chunkSize maxPayload z input output with
  | case1 z input output result output' stream hstep =>
    by_cases hoversize : (Z.inflate z input chunkSize).output ≠ [] ∧ maxPayload ≠ 0 ∧
        maxPayload < output.length + (Z.inflate z input chunkSize).output.length
    · refine ⟨hoversize.2.1, ?_⟩
      obtain ⟨result', stream', hdone⟩ | ⟨z', input', hmore⟩ :=
        Z.inflateStepWith_unlimited chunkSize z input output
      · rw [Z.inflateLoopWith_done hdone, List.length_append]
        exact hoversize.2.2
      · have hgrown := Z.inflateLoopWith_unlimited_length chunkSize z' input'
          (output ++ (Z.inflate z input chunkSize).output)
        rw [Z.inflateLoopWith_more hmore]
        rw [List.length_append] at hgrown
        omega
    · obtain ⟨hsame, -⟩ := Z.inflateStepWith_limited hoversize
      have hdone := Z.inflateLoopWith_done (hsame.symm.trans hstep)
      have hunlimited := Z.inflateLoopWith_unlimited chunkSize z input output
      rw [hdone] at hunlimited
      exact absurd hlarge hunlimited
  | case2 z input output z' input' output' hstep ih =>
    by_cases hoversize : (Z.inflate z input chunkSize).output ≠ [] ∧ maxPayload ≠ 0 ∧
        maxPayload < output.length + (Z.inflate z input chunkSize).output.length
    · rw [Z.inflateStepWith_oversize hoversize] at hstep
      cases hstep
    · obtain ⟨hsame, -⟩ := Z.inflateStepWith_limited hoversize
      rw [Z.inflateLoopWith_more (hsame.symm.trans hstep)]
      exact ih hlarge

/-- A message has the output of the loop, and its result unless the reset fails. -/
theorem inflateMessage_loop {stream : Option Z.Inflate} {z : Z.Inflate} {data : Bytes}
    (maxPayload : ℕ) (resetAfter : Bool) (hstream : stream.or Z.inflateInit = some z)
    (hdata : ¬unsignedMax - deflateTrailer.length < data.length) :
    (Z.inflateMessage stream data maxPayload resetAfter).2.1 =
        (Z.inflateLoopWith zlibChunkSize maxPayload z (data ++ deflateTrailer) []).2.1 ∧
      ((Z.inflateMessage stream data maxPayload resetAfter).1 = .internalError ∨
        (Z.inflateMessage stream data maxPayload resetAfter).1 =
          (Z.inflateLoopWith zlibChunkSize maxPayload z (data ++ deflateTrailer) []).1) := by
  simp only [inflateMessage, inflateMessageWith, resetAfterMessage, hstream, if_neg hdata]
  split
  · rename_i output stream' hloop
    rw [hloop]
    split
    · split
      · exact ⟨rfl, .inr rfl⟩
      · exact ⟨rfl, .inl rfl⟩
    · exact ⟨rfl, .inr rfl⟩
  · exact ⟨rfl, .inr rfl⟩

/-- A message that is neither empty-handed nor refused went through the loop. -/
theorem inflateMessage_started {stream : Option Z.Inflate} {data : Bytes} {maxPayload : ℕ}
    {resetAfter : Bool}
    (h : (Z.inflateMessage stream data maxPayload resetAfter).1 ≠ .internalError) :
    ∃ z, stream.or Z.inflateInit = some z ∧
      ¬unsignedMax - deflateTrailer.length < data.length := by
  unfold inflateMessage inflateMessageWith at h
  split at h
  · exact absurd rfl h
  · rename_i z hstream
    refine ⟨z, hstream, fun hlong => ?_⟩
    rw [if_pos hlong] at h
    exact h rfl

/-- An inflated message respects the limit. -/
theorem inflateMessage_length {maxPayload : ℕ} (hlimited : maxPayload ≠ 0)
    (stream : Option Z.Inflate) (data : Bytes) (resetAfter : Bool)
    (hsuccess : (Z.inflateMessage stream data maxPayload resetAfter).1 = .success) :
    (Z.inflateMessage stream data maxPayload resetAfter).2.1.length ≤ maxPayload := by
  have hresult : (Z.inflateMessage stream data maxPayload resetAfter).1 ≠ .internalError := by
    rw [hsuccess]
    decide
  obtain ⟨z, hstream, hdata⟩ := Z.inflateMessage_started hresult
  obtain ⟨houtput, hloop⟩ := Z.inflateMessage_loop maxPayload resetAfter hstream hdata
  rw [houtput]
  apply Z.inflateLoopWith_length hlimited z _ [] (Nat.zero_le _)
  rw [← hloop.resolve_left hresult, hsuccess]

/-- A message that is too large is longer than the limit when it is inflated without one. -/
theorem inflateMessage_tooLarge {maxPayload : ℕ} {stream : Option Z.Inflate} {data : Bytes}
    {resetAfter : Bool}
    (hlarge : (Z.inflateMessage stream data maxPayload resetAfter).1 = .payloadTooLarge) :
    maxPayload ≠ 0 ∧ maxPayload < (Z.inflateMessage stream data 0 resetAfter).2.1.length := by
  have hresult : (Z.inflateMessage stream data maxPayload resetAfter).1 ≠ .internalError := by
    rw [hlarge]
    decide
  obtain ⟨z, hstream, hdata⟩ := Z.inflateMessage_started hresult
  obtain ⟨-, hloop⟩ := Z.inflateMessage_loop maxPayload resetAfter hstream hdata
  obtain ⟨houtput, -⟩ := Z.inflateMessage_loop 0 resetAfter hstream hdata
  rw [houtput]
  apply Z.inflateLoopWith_tooLarge
  rw [← hloop.resolve_left hresult, hlarge]

end Zlib

namespace Session

/-- The messages reported respect the limit. -/
structure Limited (maxPayload : ℕ) (s : Session Z) : Prop where
  configured : s.maxPayload = maxPayload
  messages : ∀ payload opCode, Event.message payload opCode ∈ s.events → maxPayload ≠ 0 →
    payload.length ≤ maxPayload

/-- The session has ended, with the buffer within its bound. -/
structure Stopped (maxPayload : ℕ) (s : Session Z) : Prop extends Limited maxPayload s where
  closing : s.closing = true
  buffer : s.fragmentBuffer.length ≤ payloadLimit maxPayload + 125

/-- The session goes on. -/
structure Continues (maxPayload : ℕ) (s s' : Session Z) : Prop extends Limited maxPayload s' where
  closing : s'.closing = false
  closeSent : s'.closeSent = s.closeSent
  tip : s'.controlTipLength = s.controlTipLength

/-- A hook ends the session, or it goes on as `P` says. -/
def Handles (maxPayload : ℕ) (result : Bool × Session Z) (P : Session Z → Prop) : Prop :=
  result.1 = true ∧ result.2.Stopped maxPayload ∨ result.1 = false ∧ P result.2

variable {maxPayload : ℕ} {s : Session Z}

theorem Handles.mono {result : Bool × Session Z} {P Q : Session Z → Prop}
    (h : Handles maxPayload result P) (hPQ : P result.2 → Q result.2) :
    Handles maxPayload result Q :=
  h.imp id fun hgoes => ⟨hgoes.1, hPQ hgoes.2⟩

/-- Frames and CLOSE events do not count. -/
theorem Limited.emit {s' : Session Z} (h : s.Limited maxPayload)
    (hmax : s'.maxPayload = s.maxPayload) (es : List Event) (hevents : s'.events = s.events ++ es)
    (hes : ∀ payload opCode, Event.message payload opCode ∈ es → maxPayload ≠ 0 →
      payload.length ≤ maxPayload) : s'.Limited maxPayload := by
  refine ⟨hmax.trans h.configured, ?_⟩
  intro payload opCode hmem
  rw [hevents] at hmem
  rcases List.mem_append.mp hmem with hold | hnew
  · exact h.messages payload opCode hold
  · exact hes payload opCode hnew

theorem Limited.same {s' : Session Z} (h : s.Limited maxPayload)
    (hmax : s'.maxPayload = s.maxPayload) (hevents : s'.events = s.events) :
    s'.Limited maxPayload :=
  h.emit hmax [] (by rw [hevents, List.append_nil]) (by simp)

theorem fail_stopped (h : s.Limited maxPayload)
    (hbuffer : s.fragmentBuffer.length ≤ payloadLimit maxPayload + 125) (code : ℕ) :
    (s.fail code).Stopped maxPayload := by
  unfold fail
  simp only
  split_ifs with hclosing hsent
  · exact ⟨h, hclosing, hbuffer⟩
  · refine ⟨h.emit rfl _ rfl ?_, rfl, hbuffer⟩
    simp
  · refine ⟨h.emit rfl [.frame (formatClose code []), .close 1006 []] ?_ ?_, rfl, hbuffer⟩
    · simp [emitClose, emitFrame]
    · simp

theorem failWith_stopped (h : s.Limited maxPayload)
    (hbuffer : s.fragmentBuffer.length ≤ payloadLimit maxPayload + 125) (code : ℕ) :
    (s.failWith code).Stopped maxPayload :=
  fail_stopped (s := { s with failureCode := code }) (h.same rfl rfl) hbuffer code

theorem completeClose_stopped (h : s.Limited maxPayload)
    (hbuffer : s.fragmentBuffer.length ≤ payloadLimit maxPayload + 125) (payload : Bytes) :
    (s.completeClose payload).Stopped maxPayload := by
  unfold completeClose
  simp only
  split_ifs with hinvalid hsent
  · exact failWith_stopped h hbuffer 1002
  · refine ⟨h.emit rfl _ rfl ?_, rfl, hbuffer⟩
    simp
  · refine ⟨h.emit rfl [.frame (formatClose (parseClosePayload payload).code
      (parseClosePayload payload).message), .close (parseClosePayload payload).code
      (parseClosePayload payload).message] ?_ ?_, rfl, hbuffer⟩
    · simp [emitClose, emitFrame]
    · simp

theorem emitMessage_handles (h : s.Limited maxPayload) (hopen : s.closing = false)
    (hbuffer : s.fragmentBuffer.length ≤ payloadLimit maxPayload + 125) {data : Bytes}
    (hdata : maxPayload ≠ 0 → data.length ≤ maxPayload) (opCode : OpCode) :
    Handles maxPayload (s.emitMessage data opCode) fun s' =>
      s.Continues maxPayload s' ∧ s'.fragmentBuffer = s.fragmentBuffer := by
  unfold emitMessage
  split_ifs
  · exact .inl ⟨rfl, failWith_stopped h hbuffer 1007⟩
  · refine .inr ⟨rfl, ⟨h.emit rfl _ rfl ?_, hopen, rfl, rfl⟩, rfl⟩
    intro payload opCode' hmem
    obtain ⟨rfl, rfl⟩ : payload = data ∧ opCode' = opCode := by simpa using hmem
    exact hdata

/-- Inflating changes the stream only, and its result respects the limit. -/
theorem inflateMessage_limited (hmax : s.maxPayload = maxPayload) (data : Bytes) :
    (s.inflateMessage data).2.2.maxPayload = s.maxPayload ∧
      (s.inflateMessage data).2.2.events = s.events ∧
      (s.inflateMessage data).2.2.closing = s.closing ∧
      (s.inflateMessage data).2.2.closeSent = s.closeSent ∧
      (s.inflateMessage data).2.2.controlTipLength = s.controlTipLength ∧
      (s.inflateMessage data).2.2.fragmentBuffer = s.fragmentBuffer ∧
      ((s.inflateMessage data).1 = .success → maxPayload ≠ 0 →
        (s.inflateMessage data).2.1.length ≤ maxPayload) := by
  unfold inflateMessage
  simp only
  split
  · exact ⟨rfl, rfl, rfl, rfl, rfl, rfl, fun h => by cases h⟩
  · have hlength := fun (context : CompressionContext Z) (hlimited : maxPayload ≠ 0) =>
      Z.inflateMessage_length hlimited context.inflationStream data
        (hasOption s.extensionOptions CLIENT_NO_CONTEXT_TAKEOVER)
    subst hmax
    split_ifs <;> exact ⟨rfl, rfl, rfl, rfl, rfl, rfl, fun h h' => hlength _ h' h⟩

theorem completeMessage_handles (h : s.Limited maxPayload) (hopen : s.closing = false)
    (hbuffer : s.fragmentBuffer.length ≤ payloadLimit maxPayload + 125) (data : Bytes)
    (hdata : maxPayload ≠ 0 → data.length ≤ maxPayload) (opCode : OpCode) :
    Handles maxPayload (s.completeMessage data opCode) fun s' =>
      s.Continues maxPayload s' ∧ s'.fragmentBuffer = s.fragmentBuffer := by
  unfold completeMessage
  split_ifs with hcompressed
  · obtain ⟨hmax, hevents, hclosing, hsent, htip, hbuffer', hlength⟩ :=
      inflateMessage_limited (s := { s with compressionStatus := .enabled }) h.configured data
    have hinflated : ({ s with compressionStatus := .enabled }.inflateMessage data).2.2.Limited
        maxPayload := h.same hmax hevents
    have hwithin := (congrArg List.length hbuffer').trans_le hbuffer
    simp only
    split_ifs with hfailed
    · exact .inl ⟨rfl, failWith_stopped hinflated hwithin _⟩
    · refine (emitMessage_handles hinflated (hclosing.trans hopen) hwithin
        (hlength (not_not.mp hfailed)) opCode).mono ?_
      rintro ⟨hcontinues, hsame⟩
      exact ⟨⟨hcontinues.toLimited, hcontinues.closing, hcontinues.closeSent.trans hsent,
        hcontinues.tip.trans htip⟩, hsame.trans hbuffer'⟩
  · exact emitMessage_handles h hopen hbuffer hdata opCode

/-- The payload of a data frame is collected within the limit. -/
theorem handleData_handles (h : s.Limited maxPayload) (hopen : s.closing = false)
    (hbuffer : s.fragmentBuffer.length ≤ payloadLimit maxPayload) {data : Bytes}
    {remainingBytes : ℕ} (hlength : data.length + remainingBytes ≤ payloadLimit maxPayload)
    (opCode : OpCode) (fin : Bool) :
    Handles maxPayload (s.handleData data remainingBytes opCode fin) fun s' =>
      s.Continues maxPayload s' ∧ s'.fragmentBuffer.length ≤ payloadLimit maxPayload := by
  have hwithin : ∀ {n}, n ≤ payloadLimit maxPayload → maxPayload ≠ 0 → n ≤ maxPayload :=
    fun hn hlimited => hn.trans (payloadLimit_le hlimited)
  unfold handleData
  by_cases hdirect : remainingBytes = 0 ∧ fin = true ∧ s.fragmentBuffer = []
  · rw [if_pos hdirect]
    refine (completeMessage_handles h hopen (by omega) data (hwithin (by omega)) opCode).mono ?_
    rintro ⟨hcontinues, hsame⟩
    exact ⟨hcontinues, by rw [hsame]; exact hbuffer⟩
  · rw [if_neg hdirect]
    by_cases hfits : s.fragmentBuffer.length + data.length + remainingBytes ≤ payloadLimit maxPayload
    · rw [appendFragment_of_le (h.configured.symm ▸ hfits)]
      simp only [Bool.not_true, Bool.false_eq_true, if_false]
      have happended : ({ s with fragmentBuffer := s.fragmentBuffer ++ data } : Session Z).Limited
          maxPayload := h.same rfl rfl
      have hgrown : (s.fragmentBuffer ++ data).length + remainingBytes ≤ payloadLimit maxPayload := by
        rw [List.length_append]
        exact hfits
      have hcomplete := completeMessage_handles (s := { s with
        fragmentBuffer := s.fragmentBuffer ++ data }) happended
        hopen (hgrown.trans' (Nat.le_add_right _ _) |>.trans (Nat.le_add_right _ _))
        (s.fragmentBuffer ++ data) (hwithin (hgrown.trans' (Nat.le_add_right _ _))) opCode
      split_ifs with hlast hended
      · rcases hcomplete with hstop | ⟨hgoes, -⟩
        · exact .inl hstop
        · exact absurd (hended.symm.trans hgoes) (by decide)
      · rcases hcomplete with ⟨hstop, -⟩ | ⟨-, hcontinues, -⟩
        · exact absurd hstop hended
        · exact .inr ⟨rfl, ⟨hcontinues.toLimited.same rfl rfl, hcontinues.closing,
            hcontinues.closeSent, hcontinues.tip⟩, Nat.zero_le _⟩
      · exact .inr ⟨rfl, ⟨happended, hopen, rfl, rfl⟩, hgrown.trans' (Nat.le_add_right _ _)⟩
    · rw [appendFragment_of_lt (by rw [h.configured]; omega)]
      exact .inl ⟨rfl, failWith_stopped h (by omega) 1009⟩

/-- A control frame lies on top of the data in the buffer. -/
theorem handleControl_handles (h : s.Limited maxPayload) (hopen : s.closing = false)
    (hbuffer : s.fragmentBuffer.length ≤ payloadLimit maxPayload + s.controlTipLength)
    {data : Bytes} {remainingBytes : ℕ}
    (hlength : s.controlTipLength + data.length + remainingBytes ≤ 125) (opCode : OpCode) :
    Handles maxPayload (s.handleControl data remainingBytes opCode true) fun s' =>
      s'.Limited maxPayload ∧ s'.closing = false ∧
        s'.fragmentBuffer.length ≤ payloadLimit maxPayload + s'.controlTipLength ∧
        s'.controlTipLength + remainingBytes ≤ 125 ∧
        (remainingBytes = 0 → s'.controlTipLength = 0) := by
  have hpong : ∀ {s : Session Z} (payload : Bytes), s.Limited maxPayload →
      (s.emitFrame (formatFrame payload .pong false)).Limited maxPayload :=
    fun payload h => h.emit rfl _ rfl (by simp)
  have htip : (s.controlTipLength + data.length % 256) % 256 = s.controlTipLength + data.length := by
    omega
  have hgrown : (s.fragmentBuffer ++ data).length ≤
      payloadLimit maxPayload + (s.controlTipLength + data.length) := by
    rw [List.length_append]
    omega
  unfold handleControl
  by_cases hdirect : remainingBytes = 0 ∧ true = true ∧ s.controlTipLength = 0
  · rw [if_pos hdirect]
    obtain ⟨hlast, -, hzero⟩ := hdirect
    have hrest : s.controlTipLength + remainingBytes ≤ 125 := by omega
    split_ifs
    · exact .inl ⟨rfl, completeClose_stopped h (by omega) data⟩
    · exact .inr ⟨rfl, hpong data h, hopen, hbuffer, hrest, fun _ => hzero⟩
    · exact .inr ⟨rfl, h, hopen, hbuffer, hrest, fun _ => hzero⟩
  · rw [if_neg hdirect]
    simp only [htip, and_true]
    have hbuffered : ({ s with
        fragmentBuffer := s.fragmentBuffer ++ data
        controlTipLength := s.controlTipLength + data.length } : Session Z).Limited maxPayload :=
      h.same rfl rfl
    have hremoved : ((s.fragmentBuffer ++ data).take
        ((s.fragmentBuffer ++ data).length - (s.controlTipLength + data.length))).length ≤
          payloadLimit maxPayload + 0 := by
      rw [List.length_take]
      omega
    have hbound : (s.fragmentBuffer ++ data).length ≤ payloadLimit maxPayload + 125 := by omega
    have hrest : 0 + remainingBytes ≤ 125 := by omega
    split_ifs with hlast hclose hping
    · exact .inl ⟨rfl, completeClose_stopped hbuffered hbound _⟩
    · exact .inr ⟨rfl, (hpong _ hbuffered).same rfl rfl, hopen, hremoved, hrest, fun _ => rfl⟩
    · exact .inr ⟨rfl, hbuffered.same rfl rfl, hopen, hremoved, hrest, fun _ => rfl⟩
    · exact .inr ⟨rfl, hbuffered, hopen, hgrown, hlength, fun hzero => absurd hzero hlast⟩

/-- A session between frames. -/
structure Resting (maxPayload : ℕ) (s : Session Z) : Prop extends Limited maxPayload s where
  closing : s.closing = false
  tip : s.controlTipLength = 0
  buffer : s.fragmentBuffer.length ≤ payloadLimit maxPayload

/-- A session inside a frame, of which `remaining` payload bytes are to come. -/
structure Fits (maxPayload : ℕ) (opCode : OpCode) (remaining : ℕ) (s : Session Z) : Prop
    extends Limited maxPayload s where
  closing : s.closing = false
  data : opCode.value < 3 → s.controlTipLength = 0 ∧
    s.fragmentBuffer.length ≤ payloadLimit maxPayload ∧ remaining ≤ payloadLimit maxPayload
  control : 3 ≤ opCode.value →
    s.fragmentBuffer.length ≤ payloadLimit maxPayload + s.controlTipLength ∧
      s.controlTipLength + remaining ≤ 125

/-- A part of a frame is handled within the bounds. -/
theorem handleFragment_handles {opCode : OpCode} {data : Bytes} {remainingBytes : ℕ} (fin : Bool)
    (h : s.Fits maxPayload opCode (data.length + remainingBytes))
    (hfin : 3 ≤ opCode.value → fin = true) :
    Handles maxPayload (s.handleFragment data remainingBytes opCode fin) fun s' =>
      s'.Fits maxPayload opCode remainingBytes ∧ (remainingBytes = 0 → s'.Resting maxPayload) := by
  by_cases hdata : opCode.value < 3
  · obtain ⟨htip, hbuffer, hlength⟩ := h.data hdata
    have hfits : ∀ s' : Session Z, s.Continues maxPayload s' →
        s'.fragmentBuffer.length ≤ payloadLimit maxPayload →
        s'.Fits maxPayload opCode remainingBytes ∧
          (remainingBytes = 0 → s'.Resting maxPayload) := by
      intro s' hcontinues hbuffer'
      have htip' := hcontinues.tip.trans htip
      refine ⟨⟨hcontinues.toLimited, hcontinues.closing, fun _ => ⟨htip', hbuffer', by omega⟩,
        fun hcontrol => ?_⟩, fun _ => ⟨hcontinues.toLimited, hcontinues.closing, htip', hbuffer'⟩⟩
      omega
    cases hsent : s.closeSent with
    | true =>
      rw [handleFragment_ignored data _ fin h.closing hsent hdata]
      exact .inr ⟨rfl, hfits s ⟨h.toLimited, h.closing, rfl, rfl⟩ hbuffer⟩
    | false =>
      rw [handleFragment_data data _ fin h.closing hsent hdata]
      exact (handleData_handles h.toLimited h.closing hbuffer hlength opCode fin).mono
        fun hgoes => hfits _ hgoes.1 hgoes.2
  · have hcontrol : 3 ≤ opCode.value := by omega
    obtain ⟨hbuffer, hlength⟩ := h.control hcontrol
    rw [handleFragment_control data _ fin h.closing hcontrol, hfin hcontrol]
    refine (handleControl_handles h.toLimited h.closing hbuffer (by omega) opCode).mono ?_
    rintro ⟨hlimited, hclosing, hbuffer', hrest, hlast⟩
    refine ⟨⟨hlimited, hclosing, fun hfalse => absurd hfalse hdata, fun _ => ⟨hbuffer', hrest⟩⟩,
      fun hzero => ⟨hlimited, hclosing, hlast hzero, ?_⟩⟩
    have htip := hlast hzero
    omega

end Session

/-- The parser between frames: the stack holds the message in progress, if any. -/
def WebSocketState.Idle (w : WebSocketState) : Prop :=
  w.opStack = -1 ∧ w.fragmentedMessage = false ∨
    w.opStack = 0 ∧ w.fragmentedMessage = true ∧ w.currentOpCode.value < 3

/-- The parser when it leaves the current frame. -/
def WebSocketState.left (w : WebSocketState) : WebSocketState :=
  { w with opStack := if w.lastFin then w.opStack - 1 else w.opStack }

theorem OpCode.value_cases (opCode : OpCode) :
    opCode = .none ∨ (opCode = .text ∨ opCode = .binary) ∨ 3 ≤ opCode.value := by
  cases opCode <;> decide

/-- Entering a frame puts its opcode, or that of its message, on the stack. -/
theorem enterFrame_idle {w w' : WebSocketState} {opCode : OpCode} {fin : Bool} (hw : w.Idle)
    (hfin : 3 ≤ opCode.value → fin = true) (hentered : enterFrame opCode fin w = .ok w') :
    w'.left.Idle ∧ w'.lastFin = fin ∧ w'.wantsHead = w.wantsHead ∧
      (w'.currentOpCode.value < 3 ↔ opCode.value < 3) := by
  rcases opCode.value_cases with rfl | hmessage | hcontrol
  · rcases hw with ⟨hstack, hfragmented⟩ | ⟨hstack, hfragmented, hcurrent⟩
    · simp [enterFrame, hfragmented] at hentered
    · rw [enterFrame_continuation fin hfragmented hstack] at hentered
      cases hentered
      refine ⟨?_, rfl, rfl, iff_of_true hcurrent (by decide)⟩
      cases fin with
      | true => exact .inl ⟨by simp [WebSocketState.left, hstack], rfl⟩
      | false => exact .inr ⟨hstack, rfl, hcurrent⟩
  · have hdata : opCode.value < 3 := by rcases hmessage with rfl | rfl <;> decide
    rcases hw with ⟨hstack, hfragmented⟩ | ⟨-, hfragmented, -⟩
    · rw [enterFrame_message fin hmessage hfragmented hstack] at hentered
      cases hentered
      have hcurrent := w.currentOpCode_pushOpCode opCode (.inl hstack)
      refine ⟨?_, rfl, rfl, ?_⟩
      · cases fin with
        | true => exact .inl ⟨by simp [WebSocketState.left, WebSocketState.pushOpCode, hstack], rfl⟩
        | false =>
          refine .inr ⟨by simp [WebSocketState.left, WebSocketState.pushOpCode, hstack], rfl, ?_⟩
          exact (congrArg OpCode.value hcurrent).trans_lt hdata
      · exact iff_of_true ((congrArg OpCode.value hcurrent).trans_lt hdata) hdata
    · rw [enterFrame, if_pos ⟨hmessage, hfragmented⟩] at hentered
      cases hentered
  · obtain rfl := hfin hcontrol
    have hstack : w.opStack = -1 ∨ w.opStack = 0 := hw.imp (·.1) (·.1)
    rw [enterFrame_control true hcontrol (by omega)] at hentered
    cases hentered
    have hcurrent := w.currentOpCode_pushOpCode opCode hstack
    refine ⟨?_, rfl, rfl, iff_of_false ?_ (by omega)⟩
    · rcases hw with ⟨hstack, hfragmented⟩ | ⟨hstack, hfragmented, hbelow⟩
      · exact .inl ⟨by simp [WebSocketState.left, WebSocketState.pushOpCode, hstack], hfragmented⟩
      · refine .inr ⟨by simp [WebSocketState.left, WebSocketState.pushOpCode, hstack],
          hfragmented, ?_⟩
        simpa [WebSocketState.left, WebSocketState.pushOpCode, WebSocketState.currentOpCode,
          hstack, Vector.getD] using hbelow
    · have hvalue := congrArg OpCode.value hcurrent
      have hsame : (({ w.pushOpCode opCode with lastFin := true } : WebSocketState).currentOpCode).value =
          opCode.value := hvalue
      omega

/-- The parser and its session keep the buffer within its bound. -/
inductive Bounded (maxPayload : ℕ) (w : WebSocketState) (s : Session Z) : Prop
  | stopped (session : s.Stopped maxPayload)
  | between (wantsHead : w.wantsHead = true) (idle : w.Idle) (session : s.Resting maxPayload)
  | inside (wantsHead : w.wantsHead = false) (left : w.left.Idle)
      (fin : 3 ≤ w.currentOpCode.value → w.lastFin = true)
      (session : s.Fits maxPayload w.currentOpCode w.remainingBytes)

section Parser

variable {maxPayload : ℕ} {w : WebSocketState} {s : Session Z} {src : Bytes}

/-- The result of reading one frame, or a part of it, within the bounds. -/
inductive Consumed.Bounded (maxPayload : ℕ) : Consumed (Session Z) → Prop
  | stop {w : WebSocketState} {s : Session Z} (h : Eiows.Bounded maxPayload w s) :
      Consumed.Bounded maxPayload (.stop w s)
  | next {src : Bytes} {w : WebSocketState} {s : Session Z} (wantsHead : w.wantsHead = true)
      (idle : w.Idle) (session : s.Resting maxPayload) : Consumed.Bounded maxPayload (.next src w s)

theorem Session.Resting.stopped (h : s.Resting maxPayload) (code : ℕ) :
    (s.fail code).Stopped maxPayload :=
  Session.fail_stopped h.toLimited (h.buffer.trans (Nat.le_add_right _ _)) code

theorem consumeWhole_bounded {payLength messageHeader : ℕ} (hwants : w.wantsHead = true)
    (hleft : w.left.Idle) (hfin : w.lastFin = isFin src)
    (hcontrol : 3 ≤ w.currentOpCode.value → w.lastFin = true)
    (hs : s.Fits maxPayload w.currentOpCode payLength) (hlength : payLength + messageHeader ≤ src.length) :
    (consumeWhole protocolHooks payLength messageHeader src w s).Bounded maxPayload := by
  have hdata : (unmaskImprecise (readMask src (messageHeader - 4))
      ((src.drop messageHeader).take payLength)).length + 0 = payLength := by
    rw [unmaskImprecise_eq_keystream, keystream_length, List.length_take, List.length_drop]
    omega
  have hhandled := Session.handleFragment_handles (isFin src) (hdata ▸ hs)
    (fun hvalue => hfin ▸ hcontrol hvalue)
  unfold consumeWhole
  simp only
  split_ifs with hstop hlast
  · rcases hhandled with ⟨-, hstopped⟩ | ⟨hgoes, -⟩
    · exact .stop (.stopped hstopped)
    · exact absurd (hgoes.symm.trans hstop) (by decide)
  all_goals
    rcases hhandled with ⟨hstopped, -⟩ | ⟨-, -, hresting⟩
    · exact absurd hstopped hstop
    · refine .next hwants ?_ (hresting rfl)
      have hidle : WebSocketState.Idle { w.left with spill := [] } := hleft
      simpa [WebSocketState.left, hfin, hlast] using hidle

theorem consumePart_bounded {payLength messageHeader : ℕ} (hleft : w.left.Idle)
    (hfin : w.lastFin = isFin src) (hcontrol : 3 ≤ w.currentOpCode.value → w.lastFin = true)
    (hs : s.Fits maxPayload w.currentOpCode payLength) (hheader : messageHeader ≤ src.length)
    (hlength : src.length < payLength + messageHeader) :
    (consumePart protocolHooks payLength messageHeader src w s).Bounded maxPayload := by
  have hmod := Nat.mod_le (payLength + messageHeader - src.length) (2 ^ 32)
  have hdata : (unmaskImprecise (readMask src (messageHeader - 4)) (src.drop messageHeader)).length +
      (payLength + messageHeader - src.length) % 2 ^ 32 ≤ payLength := by
    rw [unmaskImprecise_eq_keystream, keystream_length, List.length_drop]
    omega
  have hfits : s.Fits maxPayload w.currentOpCode
      ((unmaskImprecise (readMask src (messageHeader - 4)) (src.drop messageHeader)).length +
        (payLength + messageHeader - src.length) % 2 ^ 32) := by
    refine ⟨hs.toLimited, hs.closing, fun h => ?_, fun h => ?_⟩
    · obtain ⟨htip, hbuffer, hle⟩ := hs.data h
      exact ⟨htip, hbuffer, hdata.trans hle⟩
    · obtain ⟨hbuffer, hle⟩ := hs.control h
      exact ⟨hbuffer, by omega⟩
  have hhandled := Session.handleFragment_handles (isFin src) hfits
    (fun hvalue => hfin ▸ hcontrol hvalue)
  unfold consumePart
  simp only
  refine .stop ?_
  rcases hhandled with ⟨-, hstopped⟩ | ⟨-, hgoes, -⟩
  · exact .stopped hstopped
  · exact .inside rfl hleft hcontrol hgoes

/-- The session after a hook that changes neither the buffer nor the events. -/
theorem Session.Resting.same {s' : Session Z} (h : s.Resting maxPayload)
    (hmax : s'.maxPayload = s.maxPayload) (hevents : s'.events = s.events)
    (hclosing : s'.closing = s.closing) (htip : s'.controlTipLength = s.controlTipLength)
    (hbuffer : s'.fragmentBuffer = s.fragmentBuffer) : s'.Resting maxPayload :=
  ⟨h.toLimited.same hmax hevents, hclosing.trans h.closing, htip.trans h.tip, hbuffer ▸ h.buffer⟩

theorem checkCompressed_resting (h : s.Resting maxPayload) (src : Bytes) :
    (checkCompressed protocolHooks src s).2.Resting maxPayload := by
  simp only [checkCompressed, protocolHooks, Session.setCompressed]
  split_ifs <;> first | exact h | exact h.same rfl rfl rfl rfl rfl

/-- A frame that is not refused fits the limit. -/
theorem refuseFrame_resting (h : s.Resting maxPayload) (opCode : OpCode) (payLength : ℕ) :
    (refuseFrame protocolHooks opCode payLength s).2.Resting maxPayload ∧
      ((refuseFrame protocolHooks opCode payLength s).1 = false → opCode.value < 3 →
        payLength ≤ payloadLimit maxPayload) := by
  simp only [refuseFrame, protocolHooks, Session.refusePayloadLength, h.configured]
  split_ifs with hdata hlong
  · exact ⟨h.same h.configured.symm rfl rfl rfl rfl, fun hfalse => by cases hfalse⟩
  · refine ⟨h, fun _ _ => ?_⟩
    rw [← payloadLimit_lt] at hlong
    omega
  · exact ⟨h, fun _ hvalue => by omega⟩

/-- A frame with a valid header stays within the bounds. -/
theorem consumeMessage_bounded (hwants : w.wantsHead = true) (hw : w.Idle)
    (hs : s.Resting maxPayload) (hheader : headerLengthOf (payloadLength src) ≤ src.length)
    (hvalid : badHeader src = false) :
    (consumeMessage protocolHooks (announcedLength src) (headerLengthOf (payloadLength src)) src w
      s).Bounded maxPayload := by
  simp only [badHeader, Bool.or_eq_false_iff, Bool.and_eq_false_iff, decide_eq_false_iff_not,
    Bool.not_eq_false'] at hvalid
  obtain ⟨⟨⟨-, hreserved⟩, hhigh⟩, hshort⟩ := hvalid
  have hvalue : (OpCode.ofNibble (getOpCode src)).value = getOpCode src :=
    OpCode.value_ofNibble (by omega)
  have hcontrol : 3 ≤ (OpCode.ofNibble (getOpCode src)).value →
      isFin src = true ∧ announcedLength src ≤ 125 := by
    intro h
    obtain ⟨hfin, hmarker⟩ := hshort.resolve_left (by omega)
    refine ⟨hfin, ?_⟩
    rw [announcedLength, if_pos (by omega)]
    omega
  unfold consumeMessage
  simp only
  split
  · exact .stop (.stopped (hs.stopped s.failureCode))
  · rename_i w' hentered
    obtain ⟨hleft, hfin, hwants', hcurrent⟩ := enterFrame_idle hw (fun h => (hcontrol h).1) hentered
    obtain ⟨hresting, hlimit⟩ :=
      refuseFrame_resting hs (OpCode.ofNibble (getOpCode src)) (announcedLength src)
    have hlast : 3 ≤ w'.currentOpCode.value → w'.lastFin = true := by
      intro h
      rw [hfin]
      exact (hcontrol (by omega)).1
    split_ifs with hrefused hwhole
    · exact .stop (.stopped (hresting.stopped _))
    all_goals
      have hfits : (refuseFrame protocolHooks (OpCode.ofNibble (getOpCode src)) (announcedLength src)
          s).2.Fits maxPayload w'.currentOpCode (announcedLength src) := by
        refine ⟨hresting.toLimited, hresting.closing, fun h => ⟨hresting.tip, hresting.buffer,
          hlimit (by simpa using hrefused) (hcurrent.mp h)⟩, fun h => ?_⟩
        have hlength := (hcontrol (by omega)).2
        have hbuffer := hresting.buffer
        rw [hresting.tip]
        omega
    · exact consumeWhole_bounded (hwants'.trans hwants) hleft hfin hlast hfits hwhole
    · exact consumePart_bounded hleft hfin hlast hfits hheader (by omega)

/-- The loop over the frames of a chunk stays within the bounds. -/
theorem parseNext_bounded (n : ℕ) : ∀ {src : Bytes} {w : WebSocketState} {s : Session Z},
    src.length = n → w.wantsHead = true → w.Idle → s.Resting maxPayload →
      Bounded maxPayload (parseNext protocolHooks src w s).1 (parseNext protocolHooks src w s).2 := by
  induction n using Nat.strong_induction_on with
  | _ n ih =>
    intro src w s hn hwants hw hs
    by_cases hshort : src.length < shortMessageHeader ∨
        src.length < headerLengthOf (payloadLength src)
    · rw [parseNext_of_incomplete protocolHooks hshort]
      split_ifs
      · exact .between hwants hw hs
      · exact .between hwants hw hs
    · rw [parseNext_of_complete protocolHooks hshort]
      have hresting := checkCompressed_resting hs src
      split_ifs with hbad
      · exact .stopped (hresting.stopped _)
      · have hvalid : badHeader src = false := by
          simp only [Bool.or_eq_true, not_or, Bool.not_eq_true] at hbad
          exact hbad.1.2
        have hconsumed := consumeMessage_bounded hwants hw hresting (by omega) hvalid
        cases hresult : consumeMessage protocolHooks (announcedLength src)
            (headerLengthOf (payloadLength src)) src w (checkCompressed protocolHooks src s).2 with
        | stop w' s' =>
          rw [hresult] at hconsumed
          cases hconsumed with
          | stop h => exact h
        | next rest w' s' =>
          rw [hresult] at hconsumed
          have hrest := consumeMessage_next protocolHooks hresult
          have hheader := headerLengthOf_cases (payloadLength src)
          cases hconsumed with
          | next hwants' hw' hs' =>
            refine ih rest.length ?_ rfl hwants' hw' hs'
            rw [hrest, List.length_drop]
            omega

theorem consumeContinuation_bounded (src : Bytes) (hwants : w.wantsHead = false) (hleft : w.left.Idle)
    (hfin : 3 ≤ w.currentOpCode.value → w.lastFin = true)
    (hs : s.Fits maxPayload w.currentOpCode w.remainingBytes) :
    (consumeContinuation protocolHooks src w s).Bounded maxPayload := by
  unfold consumeContinuation
  simp only
  by_cases hwhole : w.remainingBytes ≤ src.length
  · rw [if_pos hwhole]
    have hdata : (unmaskFinal (src.take w.remainingBytes) w.mask).length + 0 = w.remainingBytes := by
      rw [unmaskFinal_length, List.length_take]
      omega
    have hhandled := Session.handleFragment_handles _ (hdata.symm ▸ hs) hfin
    split_ifs with hstop hlast
    · rcases hhandled with ⟨-, hstopped⟩ | ⟨hgoes, -⟩
      · exact .stop (.stopped hstopped)
      · exact absurd (hgoes.symm.trans hstop) (by decide)
    all_goals
      rcases hhandled with ⟨hstopped, -⟩ | ⟨-, -, hresting⟩
      · exact absurd hstopped hstop
      · refine .next rfl ?_ (hresting rfl)
        have hidle : WebSocketState.Idle { w.left with wantsHead := true } := hleft
        simpa [WebSocketState.left, hlast] using hidle
  · rw [if_neg hwhole]
    have hdata : (unmaskInplace src src.length w.mask).length + (w.remainingBytes - src.length) =
        w.remainingBytes := by
      rw [unmaskInplace_length, keystream_length]
      omega
    have hhandled := Session.handleFragment_handles _ (hdata.symm ▸ hs) hfin
    split_ifs with hstop hrotated
    · rcases hhandled with ⟨-, hstopped⟩ | ⟨hgoes, -⟩
      · exact .stop (.stopped hstopped)
      · exact absurd (hgoes.symm.trans hstop) (by decide)
    all_goals
      rcases hhandled with ⟨hstopped, -⟩ | ⟨-, hfits, -⟩
      · exact absurd hstopped hstop
      · exact .stop (.inside hwants hleft hfin hfits)

/-- A call of the parser on an open session stays within the bounds. -/
theorem consume_bounded (h : Bounded maxPayload w s) (hopen : s.closing = false) (src : Bytes) :
    Bounded maxPayload (consume protocolHooks src w s).1 (consume protocolHooks src w s).2 := by
  unfold consume
  cases h with
  | stopped hstopped => exact absurd (hstopped.closing.symm.trans hopen) (by decide)
  | between hwants hw hs =>
    rw [if_pos hwants]
    exact parseNext_bounded _ rfl hwants hw hs
  | inside hwants hleft hfin hs =>
    rw [if_neg (by rw [hwants]; decide)]
    have hconsumed := consumeContinuation_bounded (w.spill ++ src) hwants hleft hfin hs
    cases hresult : consumeContinuation protocolHooks (w.spill ++ src) w s with
    | stop w' s' =>
      rw [hresult] at hconsumed
      cases hconsumed with
      | stop h => exact h
    | next rest w' s' =>
      rw [hresult] at hconsumed
      cases hconsumed with
      | next hwants' hw' hs' => exact parseNext_bounded _ rfl hwants' hw' hs'

/-- The bounds hold of a session with the same buffer and no new messages. -/
theorem Bounded.same {s' : Session Z} (h : Bounded maxPayload w s)
    (hmax : s'.maxPayload = s.maxPayload) (hevents : ∀ e ∈ s'.events, e ∈ s.events)
    (hclosing : s'.closing = s.closing) (htip : s'.controlTipLength = s.controlTipLength)
    (hbuffer : s'.fragmentBuffer = s.fragmentBuffer) : Bounded maxPayload w s' := by
  have hlimited : s.Limited maxPayload → s'.Limited maxPayload := fun h =>
    ⟨hmax.trans h.configured, fun payload opCode hmem => h.messages payload opCode (hevents _ hmem)⟩
  cases h with
  | stopped h =>
    exact .stopped ⟨hlimited h.toLimited, hclosing.trans h.closing, hbuffer ▸ h.buffer⟩
  | between hwants hw h =>
    exact .between hwants hw ⟨hlimited h.toLimited, hclosing.trans h.closing, htip.trans h.tip,
      hbuffer ▸ h.buffer⟩
  | inside hwants hleft hfin h =>
    refine .inside hwants hleft hfin ⟨hlimited h.toLimited, hclosing.trans h.closing, ?_, ?_⟩
    · rw [htip, hbuffer]
      exact h.data
    · rw [htip, hbuffer]
      exact h.control

/-- The bound on the buffer, and on the messages reported. -/
theorem Bounded.buffer (h : Bounded maxPayload w s) :
    s.fragmentBuffer.length ≤ payloadLimit maxPayload + 125 ∧ s.Limited maxPayload := by
  cases h with
  | stopped h => exact ⟨h.buffer, h.toLimited⟩
  | between _ _ h => exact ⟨h.buffer.trans (Nat.le_add_right _ _), h.toLimited⟩
  | inside _ _ _ h =>
    refine ⟨?_, h.toLimited⟩
    by_cases hdata : w.currentOpCode.value < 3
    · exact (h.data hdata).2.1.trans (Nat.le_add_right _ _)
    · obtain ⟨hbuffer, hlength⟩ := h.control (by omega)
      omega

end Parser

namespace StreamWebSocket

variable {maxPayload : ℕ} {ws : StreamWebSocket Z}

theorem create_bounded (negotiatedOptions serverMaxWindowBits maxPayload : ℕ)
    (context : Option (CompressionContext Z)) :
    Bounded maxPayload (create negotiatedOptions serverMaxWindowBits maxPayload context).parser
      (create negotiatedOptions serverMaxWindowBits maxPayload context).session := by
  refine .between rfl (.inl ⟨rfl, rfl⟩) ?_
  have hresting : ∀ s : Session Z, s.maxPayload = maxPayload → s.events = [] → s.closing = false →
      s.controlTipLength = 0 → s.fragmentBuffer = [] → s.Resting maxPayload := by
    intro s hmax hevents hclosing htip hbuffer
    exact ⟨⟨hmax, by simp [hevents]⟩, hclosing, htip, by rw [hbuffer]; exact Nat.zero_le _⟩
  simp only [create, Session.create]
  split_ifs <;> exact hresting _ rfl rfl rfl rfl rfl

/-- A chunk is read within the bounds. -/
theorem consume_bounded (h : Bounded maxPayload ws.parser ws.session) (data : Bytes) :
    Bounded maxPayload (ws.consume data).parser (ws.consume data).session := by
  have hprepared : Bounded maxPayload ws.prepare.parser ws.prepare.session :=
    h.same rfl (by simp [prepare, releaseEvents]) rfl rfl rfl
  unfold consume
  simp only
  split_ifs with hended hlong hspill hrest
  · exact hprepared
  · obtain ⟨hbuffer, hlimited⟩ := hprepared.buffer
    exact .stopped (Session.failWith_stopped hlimited hbuffer 1009)
  all_goals
    have hopen : ws.prepare.session.closing = false := by
      simpa using (not_or.mp hended).1
  · refine Eiows.consume_bounded (Eiows.consume_bounded hprepared hopen _) ?_ _
    have hfirst := hrest.1
    rwa [Bool.not_eq_true'] at hfirst
  · exact Eiows.consume_bounded hprepared hopen _
  · exact Eiows.consume_bounded hprepared hopen _

/-- Every call keeps the bounds. -/
theorem invoke_bounded (h : Bounded maxPayload ws.parser ws.session) (call : SessionCall Z) :
    Bounded maxPayload (ws.invoke call).2.parser (ws.invoke call).2.session := by
  cases call with
  | consume data => exact consume_bounded h data
  | createFrame data opCode compress =>
    have hdeflate : Bounded maxPayload ws.parser (ws.session.deflateMessage data).2 := by
      obtain ⟨shared, own, hresult, -⟩ := ws.session.deflateMessage_spec data
      rw [hresult]
      exact h.same rfl (fun e he => he) rfl rfl rfl
    simp only [invoke, createFrame]
    split_ifs
    · exact h
    · exact h
    · split <;> rename_i hresult <;> simpa only [hresult] using hdeflate
    · exact h
  | createCloseFrame code message =>
    simp only [invoke, createCloseFrame]
    split_ifs
    · exact h
    · exact h.same rfl (fun e he => he) rfl rfl rfl
  | contextUsed context => exact h.same rfl (fun e he => he) rfl rfl rfl

/-- Every sequence of calls keeps the bounds, and reports messages within the limit. -/
theorem invokeAll_bounded (h : Bounded maxPayload ws.parser ws.session)
    (calls : List (SessionCall Z)) :
    Bounded maxPayload (ws.invokeAll calls).2.parser (ws.invokeAll calls).2.session ∧
      ∀ payload opCode, Event.message payload opCode ∈ reportedEvents (ws.invokeAll calls).1 →
        maxPayload ≠ 0 → payload.length ≤ maxPayload := by
  induction calls generalizing ws with
  | nil => exact ⟨h, by simp [invokeAll, reportedEvents]⟩
  | cons call rest ih =>
    obtain ⟨hbounded, hmessages⟩ := ih (invoke_bounded h call)
    refine ⟨hbounded, ?_⟩
    intro payload opCode hmem
    have hsplit : reportedEvents (ws.invokeAll (call :: rest)).1 =
        (ws.invoke call).1.reported ++ reportedEvents ((ws.invoke call).2.invokeAll rest).1 := rfl
    rw [hsplit, List.mem_append] at hmem
    rcases hmem with hfirst | hrest
    · cases call with
      | consume data => exact (consume_bounded h data).buffer.2.messages payload opCode hfirst
      | createFrame => cases hfirst
      | createCloseFrame => cases hfirst
      | contextUsed => cases hfirst
    · exact hmessages payload opCode hrest

end StreamWebSocket

namespace Receiver

variable {r : Receiver Z} {src : Bytes}

/-- The frame at the front completes a message, with the payload of all its frames. -/
structure Reports (r : Receiver Z) (src wire : Bytes) (opCode : OpCode) : Prop where
  frame : ∃ h payload rest, FrameAt src h payload rest ∧ r.Completes h opCode ∧
    wire = r.data ++ payload
  within : wire.length ≤ payloadLimit r.maxPayload

/-- The message that the frame at the front belongs to is longer than allowed, on the
wire or inflated. -/
inductive Oversize (r : Receiver Z) (src : Bytes) : Prop
  | wire (h : FrameHeader) (parsed : parseHeader src = some h) (tooLong : r.TooLong h)
  | inflated (wire : Bytes) (opCode : OpCode) (reports : r.Reports src wire opCode)
      (stream : Option Z.Inflate) (inflater : r.inflater = some stream)
      (limited : r.maxPayload ≠ 0)
      (tooLong : r.maxPayload < (Z.inflateMessage stream wire 0
        (hasOption r.options CLIENT_NO_CONTEXT_TAKEOVER)).2.1.length)

/-- What a unit of input may report. -/
structure Reasonable (r : Receiver Z) (src : Bytes) (es : List Event) : Prop where
  message : ∀ payload opCode, .message payload opCode ∈ es →
    (r.maxPayload ≠ 0 → payload.length ≤ r.maxPayload) ∧ ∃ wire, r.Reports src wire opCode
  refusal : .frame (formatClose 1009 []) ∈ es → .close 1006 [] ∈ es → r.Oversize src
  ended : .frame (formatClose 1009 []) ∈ es → ∃ code reason, .close code reason ∈ es

/-- The frame of a failure names its code. -/
theorem formatClose_failure_ne {code : ℕ} (h : code = 1002 ∨ code = 1007 ∨ code = 1011) :
    formatClose code [] ≠ formatClose 1009 [] := by
  rcases h with rfl | rfl | rfl <;> decide

theorem refuse_reasonable {r' : Receiver Z} {code : ℕ}
    (h : r'.closeSent = r.closeSent) (hcode : code = 1002 ∨ code = 1007 ∨ code = 1011 ∨
      code = 1009 ∧ (r.closeSent = false → r.Oversize src)) :
    r.Reasonable src (r'.refuse code).2 := by
  constructor
  · intro payload opCode hmem
    simp only [refuse] at hmem
    split_ifs at hmem <;> simp at hmem
  · intro hframe _
    simp only [refuse, h] at hframe
    cases hsent : r.closeSent with
    | true => simp [hsent] at hframe
    | false =>
      have hsame : formatClose code [] = formatClose 1009 [] := by
        simpa [hsent, eq_comm] using hframe
      rcases hcode with hcode | hcode | hcode | ⟨-, hoversize⟩
      · exact absurd hsame (formatClose_failure_ne (.inl hcode))
      · exact absurd hsame (formatClose_failure_ne (.inr (.inl hcode)))
      · exact absurd hsame (formatClose_failure_ne (.inr (.inr hcode)))
      · exact hoversize hsent
  · intro _
    exact ⟨1006, [], by simp [refuse]⟩

/-- A complete message is reported, or refused for a reason. -/
theorem complete_reasonable {r' : Receiver Z} {wire : Bytes} {opCode : OpCode}
    (hsent : r'.closeSent = r.closeSent) (hmax : r'.maxPayload = r.maxPayload)
    (hinflater : r'.inflater = r.inflater) (hoptions : r'.options = r.options)
    (hreports : r.Reports src wire opCode) :
    r.Reasonable src (r'.complete wire opCode).2 := by
  have hreport : ∀ {r'' : Receiver Z} {content : Bytes}, r''.closeSent = r.closeSent →
      (r.maxPayload ≠ 0 → content.length ≤ r.maxPayload) →
        r.Reasonable src (r''.report content opCode).2 := by
    intro r'' content hsent hlength
    unfold report
    split_ifs
    · exact refuse_reasonable hsent (.inr (.inl rfl))
    · constructor
      · intro payload opCode' hmem
        obtain ⟨rfl, rfl⟩ : payload = content ∧ opCode' = opCode := by simpa using hmem
        exact ⟨hlength, wire, hreports⟩
      · intro hframe
        simp at hframe
      · intro hframe
        simp at hframe
  unfold complete
  split_ifs with hcompressed
  · unfold inflate
    rw [hinflater]
    cases hstream : r.inflater with
    | none => exact refuse_reasonable hsent (.inr (.inr (.inl rfl)))
    | some stream =>
      simp only [hmax, hoptions]
      cases hresult : (Z.inflateMessage stream wire r.maxPayload
          (hasOption r.options CLIENT_NO_CONTEXT_TAKEOVER)).1 with
      | success =>
        simp only [ne_eq, not_true_eq_false, if_false]
        exact hreport hsent fun hlimited => Z.inflateMessage_length hlimited _ _ _ hresult
      | invalidData => exact refuse_reasonable hsent (.inr (.inl rfl))
      | internalError => exact refuse_reasonable hsent (.inr (.inr (.inl rfl)))
      | payloadTooLarge =>
        refine refuse_reasonable hsent (.inr (.inr (.inr ⟨rfl, fun _ => ?_⟩)))
        obtain ⟨hlimited, hlong⟩ := Z.inflateMessage_tooLarge hresult
        exact .inflated wire opCode hreports stream hstream hlimited hlong
  · exact hreport hsent fun hlimited => hreports.within.trans (payloadLimit_le hlimited)

theorem nothing_reasonable : r.Reasonable src [] := by
  constructor
  · intro payload opCode hmem
    cases hmem
  · intro hmem
    cases hmem
  · intro hmem
    cases hmem

/-- A Close frame of the peer is answered with its own code. -/
theorem deliverClose_reasonable (payload : Bytes) :
    r.Reasonable src (r.deliverClose payload).2 := by
  simp only [deliverClose]
  split_ifs with hinvalid hsent
  · exact refuse_reasonable rfl (.inl rfl)
  all_goals
    refine ⟨fun payload opCode hmem => by simp at hmem, fun _ hclose => ?_,
      fun _ => ⟨_, _, List.mem_append_right _ (List.mem_singleton.mpr rfl)⟩⟩
    simp only [List.nil_append, List.cons_append, List.mem_cons, reduceCtorEq, false_or,
      List.not_mem_nil, or_false, Event.close.injEq] at hclose
    exact absurd hclose.1.symm hinvalid

/-- Every unit of input is reported reasonably. -/
theorem next_reasonable {r' : Receiver Z} {es : List Event} {n : ℕ}
    (hnext : (decoder Z).next r src = some (r', es, n)) : r.Reasonable src es := by
  have hunit : Receiver.next r src = some (r', es, n) := hnext
  unfold Receiver.next at hunit
  split_ifs at hunit with hclosed
  cases hparse : parseHeader src with
  | none =>
    rw [hparse] at hunit
    cases hunit
  | some h =>
    simp only [hparse] at hunit
    cases hjudged : r.judgeHeader h with
    | some code =>
      simp only [hjudged, Option.some.injEq, Prod.mk.injEq] at hunit
      rw [← hunit.2.1]
      unfold judgeHeader at hjudged
      split_ifs at hjudged with hinvalid hlong
      · cases hjudged
        exact refuse_reasonable rfl (.inl rfl)
      · cases hjudged
        refine refuse_reasonable rfl (.inr (.inr (.inr ⟨rfl, fun hsent => .wire h hparse ?_⟩)))
        simp only [tooLong, hsent, Bool.false_eq_true, if_false, Bool.and_eq_true,
          FrameHeader.isData, decide_eq_true_eq, payloadLimit_lt] at hlong
        exact hlong
    | none =>
      simp only [hjudged] at hunit
      split_ifs at hunit with hincomplete
      simp only [Option.some.injEq, Prod.mk.injEq] at hunit
      have hframe : FrameAt src h (keystream h.key 0 ((src.drop h.size).take h.length))
          (src.drop (h.size + h.length)) := ⟨hparse, by omega, rfl, rfl⟩
      obtain ⟨-, -, -, hlimit⟩ := judgeHeader_eq_none.mp hjudged
      rw [← hunit.2.1]
      by_cases hdata : h.isData = true
      · cases hsent : r.closeSent with
        | true =>
          rw [deliver_ignored _ hdata hsent]
          exact nothing_reasonable
        | false =>
          cases hfin : h.fin with
          | false =>
            rw [deliver_more _ hdata hsent hfin]
            exact nothing_reasonable
          | true =>
            rw [deliver_last _ hdata hsent hfin]
            have hcompletes : r.Completes h (r.messageOpCode h) :=
              ⟨by simpa [FrameHeader.isData] using hdata, hfin, rfl⟩
            refine complete_reasonable rfl rfl rfl rfl ⟨⟨h, _, _, hframe, hcompletes, rfl⟩, ?_⟩
            simp only [tooLong, hdata, hsent, Bool.true_and, decide_eq_false_iff_not,
              Bool.false_eq_true, if_false] at hlimit
            rw [List.length_append, hframe.length]
            omega
      · simp only [deliver, if_neg hdata, deliverControl]
        split_ifs
        · exact deliverClose_reasonable _
        · refine ⟨fun payload opCode hmem => by simp at hmem, fun _ hclose => by simp at hclose,
            fun hframe => ?_⟩
          have hsame := congrArg List.head? (Event.frame.inj (List.mem_singleton.mp hframe))
          rw [formatClose_head, formatFrame_head] at hsame
          exact absurd hsame (by decide)
        · exact nothing_reasonable

/-- The receiver after another session has used the context that they share. -/
def withContext (r : Receiver Z) (context : Option (CompressionContext Z)) : Receiver Z :=
  if hasOption r.options CLIENT_NO_CONTEXT_TAKEOVER then
    { r with inflater := context.map (·.inflationStream) }
  else r

theorem withContext_flags (r : Receiver Z) (context : Option (CompressionContext Z)) :
    (r.withContext context).closing = r.closing ∧
      (r.withContext context).closeSent = r.closeSent := by
  unfold withContext
  split_ifs <;> exact ⟨rfl, rfl⟩

/-- A call, as the receiver sees it. -/
def follow (st : Receiver Z × Bytes) : SessionCall Z → Receiver Z × Bytes
  | .consume data => ((decoder Z).feed st data).1
  | .createFrame .. => st
  | .createCloseFrame .. =>
    if st.1.closing ∨ st.1.closeSent then st else ({ st.1 with closeSent := true }, st.2)
  | .contextUsed context => (st.1.withContext context, st.2)

theorem next_maxPayload {r' : Receiver Z} {es : List Event} {n : ℕ}
    (hnext : (decoder Z).next r src = some (r', es, n)) : r'.maxPayload = r.maxPayload := by
  have hunit : Receiver.next r src = some (r', es, n) := hnext
  unfold Receiver.next at hunit
  split_ifs at hunit
  split at hunit
  · cases hunit
  · split at hunit
    · cases hunit
      rfl
    · split_ifs at hunit
      cases hunit
      exact deliver_maxPayload _ _ _

theorem passes_maxPayload {r' : Receiver Z} {src' : Bytes}
    (h : (decoder Z).Passes r src r' src') : r'.maxPayload = r.maxPayload := by
  induction h with
  | start => rfl
  | unit _ hnext ih => exact (next_maxPayload hnext).trans ih

theorem drain_maxPayload (r : Receiver Z) (src : Bytes) :
    ((decoder Z).drain r src).1.maxPayload = r.maxPayload := by
  cases hnext : (decoder Z).next r src with
  | none => rw [(decoder Z).drain_of_next_none hnext]
  | some unit =>
    obtain ⟨r', es, n⟩ := unit
    have hpos := (decoder Z).next_pos hnext
    have hle := (decoder Z).next_le hnext
    rw [(decoder Z).drain_of_next hnext]
    exact (drain_maxPayload r' (src.drop n)).trans (next_maxPayload hnext)
  termination_by src.length
  decreasing_by simp only [List.length_drop]; omega

theorem follow_maxPayload (st : Receiver Z × Bytes) (call : SessionCall Z) :
    (follow st call).1.maxPayload = st.1.maxPayload := by
  cases call with
  | consume data => exact drain_maxPayload _ _
  | createFrame => rfl
  | createCloseFrame =>
    simp only [follow]
    split_ifs <;> rfl
  | contextUsed context =>
    simp only [follow, withContext]
    split_ifs <;> rfl

theorem foldl_follow_maxPayload (st : Receiver Z × Bytes) (calls : List (SessionCall Z)) :
    (calls.foldl follow st).1.maxPayload = st.1.maxPayload := by
  induction calls generalizing st with
  | nil => rfl
  | cons call rest ih => exact (ih _).trans (follow_maxPayload st call)

end Receiver

/-- The chunk of a call is one that the drivers may pass. -/
def SessionCall.Short : SessionCall Z → Prop
  | .consume data => data.length < 2 ^ 31
  | _ => True

namespace StreamWebSocket

variable {ws : StreamWebSocket Z} {st : Receiver Z × Bytes}

/-- The inflate stream of a session and its receiver may change between calls. -/
theorem Tracks.contextUsed (h : ws.Tracks st) (context : Option (CompressionContext Z)) :
    (ws.invoke (.contextUsed context)).2.Tracks (Receiver.follow st (.contextUsed context)) := by
  rcases h with hended | hreads
  · obtain ⟨hclosing, hsent⟩ := st.1.withContext_flags context
    exact .inl ⟨hended.session, hclosing.trans hended.receiver,
      hended.closeSent.trans hsent.symm⟩
  · right
    obtain ⟨r, pending⟩ := st
    simp only [invoke, Receiver.follow, Receiver.withContext]
    by_cases htakeover : hasOption r.options CLIENT_NO_CONTEXT_TAKEOVER = true
    · rw [if_pos htakeover]
      have hagrees : ws.session.Agrees r →
          Session.Agrees { ws.session with sharedCompressionContext := context }
            { r with inflater := context.map (·.inflationStream) } := by
        intro hs
        refine { hs with inflater := ?_ }
        simp only [Session.inflater, hs.options, if_pos htakeover]
      cases hreads with
      | header hwants hspill hparse hw hs hr =>
        exact .header hwants hspill hparse ⟨hw.fragmentedMessage, hw.opStack, hw.opCode⟩
          { hagrees hs.toAgrees with
            compression := hs.compression
            tip := hs.tip
            buffer := hs.buffer } hr
      | payload h hwants hspill hparse hok part hrest hproper hremaining hmask hw hs hr =>
        exact .payload h hwants hspill hparse hok part hrest hproper hremaining hmask
          ⟨hw.fragmentedMessage, hw.opStack, hw.current, hw.below, hw.lastFin⟩
          { hagrees hs.toAgrees with
            compression := hs.compression
            data := hs.data
            control := hs.control } hr
    · rw [if_neg htakeover]
      refine hreads.contexts context ws.session.privateCompressionContext ?_
      have hoptions : ws.session.extensionOptions = r.options := by
        cases hreads with
        | header _ _ _ _ hs _ => exact hs.options
        | payload _ _ _ _ _ _ _ _ _ _ _ hs _ => exact hs.options
      simp only [Session.inflater, hoptions, if_neg htakeover]

/-- Every call is followed by the receiver. -/
theorem Tracks.invoke (h : ws.Tracks st) {call : SessionCall Z} (hshort : call.Short) :
    (ws.invoke call).2.Tracks (Receiver.follow st call) := by
  cases call with
  | consume data => exact (step_tracks ws st data hshort h).1
  | createFrame data opCode compress => exact createFrame_tracks h data opCode compress
  | createCloseFrame code message =>
    obtain ⟨hclosing, hsent⟩ := h.closing
    simp only [StreamWebSocket.invoke, Receiver.follow]
    by_cases hended : ws.session.closing = true ∨ ws.session.closeSent = true
    · rw [createCloseFrame_refused hended, if_pos (by rwa [← hclosing, ← hsent])]
      exact h
    · have hcreated : ws.createCloseFrame code message = (some (formatClose code message),
          { ws with session := { ws.session with closeSent := true } }) := if_neg hended
      rw [if_neg (by rwa [← hclosing, ← hsent]), hcreated]
      exact (createCloseFrame_tracks h hcreated).2.2
  | contextUsed context => exact h.contextUsed context

theorem Tracks.invokeAll {calls : List (SessionCall Z)} (h : ws.Tracks st)
    (hshort : ∀ call ∈ calls, call.Short) :
    (ws.invokeAll calls).2.Tracks (calls.foldl Receiver.follow st) := by
  induction calls generalizing ws st with
  | nil => exact h
  | cons call rest ih =>
    exact ih (h.invoke (hshort call (List.mem_cons_self ..)))
      (fun c hc => hshort c (List.mem_cons_of_mem _ hc))

end StreamWebSocket

/-- Two CLOSE events of one call are the same. -/
theorem close_unique {ws : StreamWebSocket Z} {data : Bytes} {e e' : Event}
    (he : e ∈ (ws.consume data).events) (he' : e' ∈ (ws.consume data).events)
    (hclose : e.isClose = true) (hclose' : e'.isClose = true) : e = e' := by
  have hcount := (ws.consume_batch data).closes.1
  have hone := Bool.toNat_le (ws.consume data).session.closing
  rw [List.countP_eq_length_filter] at hcount
  have hmem := List.mem_filter.mpr ⟨he, hclose⟩
  have hmem' := List.mem_filter.mpr ⟨he', hclose'⟩
  match hfilter : (ws.consume data).events.filter (·.isClose) with
  | [] =>
    rw [hfilter] at hmem
    cases hmem
  | [only] =>
    rw [hfilter, List.mem_singleton] at hmem hmem'
    rw [hmem, hmem']
  | _ :: _ :: _ =>
    rw [hfilter] at hcount
    simp only [List.length_cons] at hcount
    omega

/-- What `maxPayload` bounds. In every sequence of calls the messages reported and the
fragment buffer keep to the limit. A message that is reported keeps to it on the wire
too, and a session that refuses a message for its size has read one that is longer
than the limit, on the wire or inflated. -/
theorem maxPayload_bounds (negotiatedOptions serverMaxWindowBits maxPayload : ℕ)
    (context : Option (CompressionContext Z)) (calls : List (SessionCall Z)) :
    let r := (StreamWebSocket.create negotiatedOptions serverMaxWindowBits maxPayload
      context).invokeAll calls
    let st := calls.foldl Receiver.follow (Receiver.create negotiatedOptions maxPayload context, [])
    let limit := if maxPayload = 0 then 2 ^ 32 - 1 else maxPayload
    (∀ payload opCode, .message payload opCode ∈ reportedEvents r.1 → maxPayload ≠ 0 →
      payload.length ≤ maxPayload) ∧
    r.2.session.fragmentBuffer.length ≤ limit + 125 ∧
    ((∀ call ∈ calls, call.Short) → ∀ data : Bytes, data.length < 2 ^ 31 →
      (∀ payload opCode, .message payload opCode ∈ (r.2.consume data).events →
        ∃ q src wire, (Receiver.decoder Z).Passes st.1 (st.2 ++ data) q src ∧
          q.Reports src wire opCode ∧ wire.length ≤ limit) ∧
      (.frame (formatClose 1009 []) ∈ (r.2.consume data).events →
        .close 1006 [] ∈ (r.2.consume data).events →
        ∃ q src, (Receiver.decoder Z).Passes st.1 (st.2 ++ data) q src ∧
          q.maxPayload = maxPayload ∧ q.Oversize src)) := by
  intro r st limit
  obtain ⟨hbounded, hmessages⟩ := StreamWebSocket.invokeAll_bounded
    (StreamWebSocket.create_bounded negotiatedOptions serverMaxWindowBits maxPayload context) calls
  have hlimit : payloadLimit maxPayload ≤ limit := by
    simp only [payloadLimit, limit, unsignedMax]
    split_ifs
    · exact le_rfl
    · exact min_le_left _ _
  refine ⟨hmessages, hbounded.buffer.1.trans (by omega), ?_⟩
  intro hshort data hdata
  have htracks : r.2.Tracks st := (StreamWebSocket.create_tracks negotiatedOptions
    serverMaxWindowBits maxPayload context).invokeAll hshort
  have hevents : (r.2.consume data).events = ((Receiver.decoder Z).drain st.1 (st.2 ++ data)).2.2 :=
    (StreamWebSocket.step_tracks r.2 st data hdata htracks).2
  have hmax : ∀ {q : Receiver Z} {src : Bytes},
      (Receiver.decoder Z).Passes st.1 (st.2 ++ data) q src → q.maxPayload = maxPayload :=
    fun hpasses => (Receiver.passes_maxPayload hpasses).trans
      (Receiver.foldl_follow_maxPayload _ calls)
  constructor
  · intro payload opCode hmem
    rw [hevents] at hmem
    obtain ⟨q, src, q', es, n, hpasses, hnext, hes, -⟩ := (Receiver.decoder Z).mem_drain hmem
    obtain ⟨-, wire, hreports⟩ := (Receiver.next_reasonable hnext).message payload opCode hes
    refine ⟨q, src, wire, hpasses, hreports, ?_⟩
    have hwithin := hreports.within
    rw [hmax hpasses] at hwithin
    exact hwithin.trans hlimit
  · intro hframe hclose
    have hmem := hframe
    rw [hevents] at hmem
    obtain ⟨q, src, q', es, n, hpasses, hnext, hes, hsub⟩ := (Receiver.decoder Z).mem_drain hmem
    have hreasonable := Receiver.next_reasonable hnext
    obtain ⟨code, reason, hended⟩ := hreasonable.ended hes
    have hsame : Event.close code reason = .close 1006 [] :=
      close_unique (hevents ▸ hsub hended) hclose rfl rfl
    exact ⟨q, src, hpasses, hmax hpasses, hreasonable.refusal hes (hsame ▸ hended)⟩

end Eiows
