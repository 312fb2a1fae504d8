import Eiows.Session.Compression

/-!
# The output chunk of `inflateMessage`

`inflateMessage` hands zlib one output chunk of 32 KiB at a time. This file runs
the same loop with a chunk of any size. What zlib promises is stated over the
output that a stream would produce with unlimited room: a call either finishes
that output or stops because its room is full. The result of a message is then
a function of the input alone, and the chunk shows only in how much of an
oversized message is stored before it is refused.
-/

namespace Eiows

namespace Zlib

/-- Why a stream stops when its room is no limit. -/
inductive Ending where
  /-- The input is exhausted. -/
  | starved
  /-- A final block has ended. -/
  | streamEnd
  /-- The data is invalid. -/
  | corrupt
  deriving DecidableEq, Repr

/-- The codes that `inflate` returns for an ending. -/
def Ending.Reports : Ending → ZStatus → Prop
  | .starved, status => status = .ok ∨ status = .bufError
  | .streamEnd, status => status = .streamEnd
  | .corrupt, status => status = .error

/-- What a stream makes of its input when its room is no limit. -/
structure Decoding (S : Type) where
  /-- Everything that the input encodes. -/
  output : Bytes
  /-- The input read. -/
  consumed : ℕ
  ending : Ending
  /-- The stream afterwards. -/
  stream : S

/-- A call that delivers the whole of a decoding. -/
structure Decoding.Finishes {S : Type} (d : Decoding S) (r : ZResult S) : Prop where
  output : r.output = d.output
  consumed : r.consumed = d.consumed
  stream : r.stream = d.stream
  status : d.ending.Reports r.status

/-- What is left of a decoding after a call that stopped in its middle. -/
def Decoding.rest {S : Type} (d : Decoding S) (r : ZResult S) : Decoding S :=
  { d with output := d.output.drop r.output.length, consumed := d.consumed - r.consumed }

/-- What zlib documents of `inflate`. The room of a call decides where it stops,
never what it decodes; a stream is what its later calls can observe of it. -/
structure Decoder (Z : Zlib) where
  /-- The decoding of an input. -/
  decode : Z.Inflate → Bytes → Decoding Z.Inflate
  /-- The LZ77 history. -/
  history : Z.Inflate → Bytes
  /-- A stream waits only for input. -/
  decode_starved : ∀ z input, (decode z input).ending = .starved →
    (decode z input).consumed = input.length
  /-- Waiting without input changes nothing. -/
  decode_waiting : ∀ z input, (decode z input).ending = .starved →
    decode (decode z input).stream [] =
      { output := [], consumed := 0, ending := .starved, stream := (decode z input).stream }
  /-- A call finishes its decoding, or fills its room and leaves the rest. -/
  inflate_decodes : ∀ z input room, 0 < room →
    (decode z input).Finishes (Z.inflate z input room) ∨
      ((Z.inflate z input room).status = .ok ∧ (Z.inflate z input room).output.length = room ∧
        (Z.inflate z input room).output <+: (decode z input).output ∧
        (Z.inflate z input room).consumed ≤ (decode z input).consumed ∧
        decode (Z.inflate z input room).stream
            (input.drop (Z.inflate z input room).consumed) =
          (decode z input).rest (Z.inflate z input room))
  history_getDictionary : ∀ z d, Z.inflateGetDictionary z = some d → history z = d
  history_reset : ∀ z z', Z.inflateReset z = some z' → history z' = []
  history_setDictionary : ∀ z d z', Z.untouched z = true → Z.inflateSetDictionary z d = some z' →
    history z' = d
  /-- A stream that has read nothing is known by its history. -/
  decode_untouched : ∀ z z', Z.untouched z = true → Z.untouched z' = true →
    history z = history z' → decode z = decode z'

variable {Z : Zlib}

/-- The bytes that an input encodes in full: up to its end where no final block
comes before, and past each final block with the history that the block left.
The count is the input read. -/
inductive Decodes (D : Z.Decoder) : Z.Inflate → Bytes → ℕ → Bytes → Prop
  | starved {z : Z.Inflate} {input : Bytes} (hending : (D.decode z input).ending = .starved) :
      Decodes D z input (D.decode z input).consumed (D.decode z input).output
  | restarted {z z' : Z.Inflate} {input rest : Bytes} {n : ℕ}
      (hending : (D.decode z input).ending = .streamEnd) (huntouched : Z.untouched z' = true)
      (hhistory : D.history z' = D.history (D.decode z input).stream)
      (hrest : Decodes D z' (input.drop (D.decode z input).consumed) n rest) :
      Decodes D z input ((D.decode z input).consumed + n) ((D.decode z input).output ++ rest)

theorem Decodes.congr {D : Z.Decoder} {z z' : Z.Inflate} {input output : Bytes} {n : ℕ}
    (halike : D.decode z = D.decode z') (h : Decodes D z input n output) :
    Decodes D z' input n output := by
  cases h with
  | starved hending =>
    rw [halike] at hending ⊢
    exact .starved hending
  | restarted hending huntouched hhistory hrest =>
    rw [halike] at hending hhistory hrest ⊢
    exact .restarted hending huntouched hhistory hrest

/-- The decoded data is a function of the stream and the input. -/
theorem Decodes.unique {D : Z.Decoder} {z : Z.Inflate} {input output output' : Bytes} {n n' : ℕ}
    (h : Decodes D z input n output) (h' : Decodes D z input n' output') :
    n = n' ∧ output = output' := by
  induction h generalizing n' output' with
  | starved hending =>
    cases h' with
    | starved => exact ⟨rfl, rfl⟩
    | restarted hending' => rw [hending] at hending'; cases hending'
  | @restarted z z₁ input rest n hending huntouched hhistory hrest ih =>
    cases h' with
    | starved hending' => rw [hending] at hending'; cases hending'
    | @restarted _ z₂ _ rest' n' _ huntouched' hhistory' hrest' =>
      have halike : D.decode z₂ = D.decode z₁ :=
        D.decode_untouched z₂ z₁ huntouched' huntouched (hhistory'.trans hhistory.symm)
      obtain ⟨rfl, rfl⟩ := ih (hrest'.congr halike)
      exact ⟨rfl, rfl⟩

namespace Decoder

variable (D : Z.Decoder)

/-- Room for one byte more than the output lets a call finish. -/
theorem finishes_of_room (z : Z.Inflate) (input : Bytes) :
    (D.decode z input).Finishes
      (Z.inflate z input ((D.decode z input).output.length + 1)) := by
  obtain hfinishes | ⟨-, hfull, hfront, -, -⟩ :=
    D.inflate_decodes z input ((D.decode z input).output.length + 1) (Nat.succ_pos _)
  · exact hfinishes
  · have hlength := hfront.length_le
    omega

theorem decode_consumed_le (z : Z.Inflate) (input : Bytes) :
    (D.decode z input).consumed ≤ input.length := by
  rw [← (D.finishes_of_room z input).consumed]
  exact Z.inflate_consumed _ _ _

/-- A restart after a final block leaves less work. -/
theorem restart_decreases {z z' : Z.Inflate} {input : Bytes}
    (hending : (D.decode z input).ending = .streamEnd)
    (hrestart : Z.restartInflater (D.decode z input).stream = (true, some z')) :
    Z.inflateUnits z' (input.drop (D.decode z input).consumed) < Z.inflateUnits z input := by
  have hfinishes := D.finishes_of_room z input
  have hstatus := hfinishes.status
  rw [hending] at hstatus
  rw [← hfinishes.consumed]
  exact Z.inflateUnits_restart hstatus (Z.restartInflater_untouched hrestart)

/-- A successful restart keeps the history. -/
theorem restart_history {z z' : Z.Inflate} (hrestart : Z.restartInflater z = (true, some z')) :
    D.history z' = D.history z := by
  unfold restartInflater at hrestart
  split at hrestart
  · cases hrestart
  · rename_i dictionary hdictionary
    rw [D.history_getDictionary _ _ hdictionary]
    split at hrestart
    · cases hrestart
    · rename_i z₁ hreset
      split at hrestart
      · rename_i hempty
        cases hrestart
        rw [D.history_reset _ _ hreset, hempty]
      · split at hrestart
        · cases hrestart
        · rename_i z₂ hset
          cases hrestart
          exact D.history_setDictionary _ _ _ (Z.inflateReset_untouched _ _ hreset) hset

/-- The result, the output and the stream of a message whose payload has no
limit, from the decodings alone. -/
def run (z : Z.Inflate) (input : Bytes) : InflateResult × Bytes × Option Z.Inflate :=
  match _hending : (D.decode z input).ending with
  | .starved => (.success, (D.decode z input).output, some (D.decode z input).stream)
  | .corrupt =>
    (.invalidData, (D.decode z input).output, (Z.resetInflater (D.decode z input).stream).2)
  | .streamEnd =>
    match _hrestart : Z.restartInflater (D.decode z input).stream with
    | (true, some z') =>
      ((run z' (input.drop (D.decode z input).consumed)).1,
        (D.decode z input).output ++ (run z' (input.drop (D.decode z input).consumed)).2.1,
        (run z' (input.drop (D.decode z input).consumed)).2.2)
    | (_, z') => (.internalError, (D.decode z input).output, (Z.resetInflater z').2)
  termination_by Z.inflateUnits z input
  decreasing_by all_goals exact D.restart_decreases _hending _hrestart

theorem run_starved {z : Z.Inflate} {input : Bytes}
    (hending : (D.decode z input).ending = .starved) :
    D.run z input =
      (.success, (D.decode z input).output, some (D.decode z input).stream) := by
  rw [run]
  split <;> simp_all

theorem run_corrupt {z : Z.Inflate} {input : Bytes}
    (hending : (D.decode z input).ending = .corrupt) :
    D.run z input = (.invalidData, (D.decode z input).output,
      (Z.resetInflater (D.decode z input).stream).2) := by
  rw [run]
  split <;> simp_all

theorem run_restarted {z z' : Z.Inflate} {input : Bytes}
    (hending : (D.decode z input).ending = .streamEnd)
    (hrestart : Z.restartInflater (D.decode z input).stream = (true, some z')) :
    D.run z input =
      ((D.run z' (input.drop (D.decode z input).consumed)).1,
        (D.decode z input).output ++ (D.run z' (input.drop (D.decode z input).consumed)).2.1,
        (D.run z' (input.drop (D.decode z input).consumed)).2.2) := by
  rw [run]
  split
  · simp_all
  · simp_all
  · split
    · rename_i z'' hrestart'
      rw [hrestart] at hrestart'
      cases hrestart'
      rfl
    · simp_all

theorem run_unrestarted {z : Z.Inflate} {input : Bytes}
    (hending : (D.decode z input).ending = .streamEnd)
    (hrestart : ∀ z', Z.restartInflater (D.decode z input).stream ≠ (true, some z')) :
    D.run z input = (.internalError, (D.decode z input).output,
      (Z.resetInflater (Z.restartInflater (D.decode z input).stream).2).2) := by
  rw [run]
  split
  · simp_all
  · simp_all
  · split
    · rename_i z' hrestart'
      exact absurd hrestart' (hrestart z')
    · rename_i hrestart'
      rw [hrestart']

/-- A call that fills its room leaves the rest of the run to the next call. -/
theorem run_paused {z : Z.Inflate} {input : Bytes} {r : ZResult Z.Inflate}
    (hfront : r.output <+: (D.decode z input).output)
    (hconsumed : r.consumed ≤ (D.decode z input).consumed)
    (hrest : D.decode r.stream (input.drop r.consumed) = (D.decode z input).rest r) :
    D.run z input = ((D.run r.stream (input.drop r.consumed)).1,
      r.output ++ (D.run r.stream (input.drop r.consumed)).2.1,
      (D.run r.stream (input.drop r.consumed)).2.2) := by
  have houtput : r.output ++ ((D.decode z input).rest r).output = (D.decode z input).output :=
    List.prefix_iff_eq_append.mp hfront
  have hinput : (input.drop r.consumed).drop ((D.decode z input).rest r).consumed =
      input.drop (D.decode z input).consumed := by
    rw [List.drop_drop]
    congr 1
    simp only [Decoding.rest]
    omega
  have hend : (D.decode r.stream (input.drop r.consumed)).ending = (D.decode z input).ending := by
    rw [hrest]
    rfl
  have hstream : (D.decode r.stream (input.drop r.consumed)).stream =
      (D.decode z input).stream := by
    rw [hrest]
    rfl
  cases hending : (D.decode z input).ending with
  | starved =>
    rw [D.run_starved hending, D.run_starved (hend.trans hending), hstream, hrest, houtput]
  | corrupt =>
    rw [D.run_corrupt hending, D.run_corrupt (hend.trans hending), hstream, hrest, houtput]
  | streamEnd =>
    by_cases hrestart : ∃ z', Z.restartInflater (D.decode z input).stream = (true, some z')
    · obtain ⟨z', hrestart⟩ := hrestart
      rw [D.run_restarted hending hrestart,
        D.run_restarted (hend.trans hending) (by rw [hstream]; exact hrestart), hrest, hinput,
        ← List.append_assoc, houtput]
    · have hnone := not_exists.mp hrestart
      rw [D.run_unrestarted hending hnone,
        D.run_unrestarted (hend.trans hending) (by rw [hstream]; exact hnone), hstream, hrest,
        houtput]

/-- A successful run decodes all of its input. -/
theorem run_success (z : Z.Inflate) (input : Bytes) (hsuccess : (D.run z input).1 = .success) :
    Decodes D z input input.length (D.run z input).2.1 := by
  cases hending : (D.decode z input).ending with
  | starved =>
    rw [D.run_starved hending, ← D.decode_starved z input hending]
    exact .starved hending
  | corrupt =>
    rw [D.run_corrupt hending] at hsuccess
    cases hsuccess
  | streamEnd =>
    by_cases hrestart : ∃ z', Z.restartInflater (D.decode z input).stream = (true, some z')
    · obtain ⟨z', hrestart⟩ := hrestart
      rw [D.run_restarted hending hrestart] at hsuccess ⊢
      have hle := D.decode_consumed_le z input
      have hrest := run_success z' _ hsuccess
      rw [List.length_drop] at hrest
      have hdecodes := Decodes.restarted hending (Z.restartInflater_untouched hrestart)
        (D.restart_history hrestart) hrest
      rwa [Nat.add_sub_cancel' hle] at hdecodes
    · rw [D.run_unrestarted hending (not_exists.mp hrestart)] at hsuccess
      cases hsuccess
  termination_by Z.inflateUnits z input
  decreasing_by exact D.restart_decreases hending hrestart

end Decoder

variable (Z)

theorem inflateMessageWith_of_stream {z : Z.Inflate} {stream : Option Z.Inflate} {data : Bytes}
    (hstream : stream.or Z.inflateInit = some z)
    (hdata : data.length ≤ unsignedMax - deflateTrailer.length) (chunkSize maxPayload : ℕ)
    (resetAfter : Bool) :
    Z.inflateMessageWith chunkSize stream data maxPayload resetAfter =
      Z.resetAfterMessage resetAfter
        (Z.inflateLoopWith chunkSize maxPayload z (data ++ deflateTrailer) []) := by
  simp only [inflateMessageWith, hstream, if_neg (Nat.not_lt.mpr hdata)]

variable {Z}

namespace Decoder

variable (D : Z.Decoder)

/-- A call that exhausts its input leaves a run that is over. -/
theorem run_exhausted {z : Z.Inflate} {input : Bytes} {r : ZResult Z.Inflate}
    (hending : (D.decode z input).ending = .starved) (hfinishes : (D.decode z input).Finishes r) :
    D.run z input = ((D.run r.stream (input.drop r.consumed)).1,
      r.output ++ (D.run r.stream (input.drop r.consumed)).2.1,
      (D.run r.stream (input.drop r.consumed)).2.2) := by
  have hwaiting := D.decode_waiting z input hending
  rw [D.run_starved hending, hfinishes.output, hfinishes.consumed, hfinishes.stream,
    D.decode_starved z input hending, List.drop_length, D.run_starved (by rw [hwaiting]), hwaiting,
    List.append_nil]

/-- An iteration whose output is within the limit takes the run forward. -/
theorem inflateStepWith_run {chunkSize maxPayload : ℕ} (hsize : 0 < chunkSize) {z : Z.Inflate}
    {input output : Bytes} (hfits : maxPayload = 0 ∨
      output.length + (Z.inflate z input chunkSize).output.length ≤ maxPayload) :
    (∃ result stream, Z.inflateStepWith chunkSize maxPayload z input output =
        .done result (output ++ (Z.inflate z input chunkSize).output) stream ∧
      D.run z input = (result, (Z.inflate z input chunkSize).output, stream)) ∨
    (∃ z', Z.inflateStepWith chunkSize maxPayload z input output =
        .more z' (input.drop (Z.inflate z input chunkSize).consumed)
          (output ++ (Z.inflate z input chunkSize).output) ∧
      D.run z input =
        ((D.run z' (input.drop (Z.inflate z input chunkSize).consumed)).1,
          (Z.inflate z input chunkSize).output ++
            (D.run z' (input.drop (Z.inflate z input chunkSize).consumed)).2.1,
          (D.run z' (input.drop (Z.inflate z input chunkSize).consumed)).2.2)) := by
  have hwithin : ¬((Z.inflate z input chunkSize).output ≠ [] ∧ maxPayload ≠ 0 ∧
      maxPayload < output.length + (Z.inflate z input chunkSize).output.length) := by
    rintro ⟨-, hlimit, hover⟩
    omega
  have hprogress (hfull : (Z.inflate z input chunkSize).output.length = chunkSize) :
      (Z.inflate z input chunkSize).output ≠ [] := by
    rw [← List.length_pos_iff, hfull]
    exact hsize
  unfold inflateStepWith
  simp only [if_neg hwithin]
  obtain hfinishes | ⟨hok, hfull, hfront, hconsumed, hrest⟩ :=
    D.inflate_decodes z input chunkSize hsize
  · have hstatus := hfinishes.status
    cases hending : (D.decode z input).ending with
    | starved =>
      rw [hending] at hstatus
      have hall : input.drop (Z.inflate z input chunkSize).consumed = [] := by
        rw [hfinishes.consumed, D.decode_starved z input hending, List.drop_length]
      by_cases hfull : (Z.inflate z input chunkSize).output.length = chunkSize
      · -- The output ends on a chunk boundary: one more call finds nothing left.
        right
        refine ⟨(Z.inflate z input chunkSize).stream, ?_, D.run_exhausted hending hfinishes⟩
        rcases hstatus with hstatus | hstatus <;> simp [hstatus, hfull, hprogress hfull]
      · left
        refine ⟨.success, some (Z.inflate z input chunkSize).stream, ?_, ?_⟩
        · rcases hstatus with hstatus | hstatus <;> simp [hstatus, hfull, hall]
        · rw [D.run_starved hending, hfinishes.output, hfinishes.stream]
    | corrupt =>
      rw [hending] at hstatus
      left
      refine ⟨.invalidData, (Z.resetInflater (Z.inflate z input chunkSize).stream).2, ?_, ?_⟩
      · rw [show (Z.inflate z input chunkSize).status = .error from hstatus]
      · rw [D.run_corrupt hending, hfinishes.output, hfinishes.stream]
    | streamEnd =>
      rw [hending] at hstatus
      rw [show (Z.inflate z input chunkSize).status = .streamEnd from hstatus]
      by_cases hrestart : ∃ z', Z.restartInflater (D.decode z input).stream = (true, some z')
      · obtain ⟨z', hrestart⟩ := hrestart
        right
        refine ⟨z', ?_, ?_⟩
        · simp only [hfinishes.stream, hrestart]
        · rw [D.run_restarted hending hrestart, hfinishes.output, hfinishes.consumed]
      · have hnone := not_exists.mp hrestart
        left
        refine ⟨.internalError,
          (Z.resetInflater (Z.restartInflater (Z.inflate z input chunkSize).stream).2).2, ?_, ?_⟩
        · rw [← hfinishes.stream] at hnone
          dsimp only
          split
          · rename_i z' hrestarted
            exact absurd hrestarted (hnone z')
          · rename_i hfailed
            rw [hfailed]
        · rw [D.run_unrestarted hending hnone, hfinishes.output, hfinishes.stream]
  · -- The room is full, so the loop asks again.
    right
    refine ⟨(Z.inflate z input chunkSize).stream, ?_, D.run_paused hfront hconsumed hrest⟩
    simp [hok, hfull, hprogress hfull]

/-- What one call stores belongs to the run. -/
theorem inflate_output_le_run {chunkSize : ℕ} (hsize : 0 < chunkSize) (z : Z.Inflate)
    (input : Bytes) :
    (Z.inflate z input chunkSize).output.length ≤ (D.run z input).2.1.length := by
  have hfits : 0 = 0 ∨ ([] : Bytes).length + (Z.inflate z input chunkSize).output.length ≤ 0 :=
    .inl rfl
  obtain ⟨result, stream, -, hrun⟩ | ⟨z', -, hrun⟩ := D.inflateStepWith_run hsize hfits
  · rw [hrun]
  · rw [hrun, List.length_append]
    omega

/-- A chunk that exceeds the limit ends the loop. -/
theorem inflateStepWith_oversize {chunkSize maxPayload : ℕ} {z : Z.Inflate} {input output : Bytes}
    (houtput : output.length ≤ maxPayload) (hlimit : maxPayload ≠ 0)
    (hover : maxPayload < output.length + (Z.inflate z input chunkSize).output.length) :
    Z.inflateStepWith chunkSize maxPayload z input output = .done .payloadTooLarge output
      (Z.resetInflater (Z.inflate z input chunkSize).stream).2 := by
  have hnonempty : (Z.inflate z input chunkSize).output ≠ [] := by
    rw [← List.length_pos_iff]
    omega
  simp only [inflateStepWith, if_pos (And.intro hnonempty (And.intro hlimit hover))]

/-- The loop delivers the run, unless its output exceeds the limit. -/
theorem inflateLoopWith_run {chunkSize : ℕ} (hsize : 0 < chunkSize) (maxPayload : ℕ)
    (z : Z.Inflate) (input output : Bytes) :
    maxPayload = 0 ∨ output.length ≤ maxPayload →
    (maxPayload = 0 ∨ output.length + (D.run z input).2.1.length ≤ maxPayload →
      Z.inflateLoopWith chunkSize maxPayload z input output =
        ((D.run z input).1, output ++ (D.run z input).2.1, (D.run z input).2.2)) ∧
    (maxPayload ≠ 0 → maxPayload < output.length + (D.run z input).2.1.length →
      (Z.inflateLoopWith chunkSize maxPayload z input output).1 = .payloadTooLarge) := by
  fun_induction Z.inflateLoopWith chunkSize maxPayload z input output with
  | case1 z input output result output' stream hstep =>
    intro houtput
    by_cases hfits : maxPayload = 0 ∨
        output.length + (Z.inflate z input chunkSize).output.length ≤ maxPayload
    · obtain ⟨result₁, stream₁, hdone, hrun⟩ | ⟨z', hmore, -⟩ :=
        D.inflateStepWith_run hsize hfits
      · rw [hdone] at hstep
        cases hstep
        simp only [hrun]
        exact ⟨fun _ => trivial, fun hlimit hover => by omega⟩
      · rw [hmore] at hstep
        cases hstep
    · have hle := D.inflate_output_le_run hsize z input
      rw [inflateStepWith_oversize (by omega) (by omega) (by omega)] at hstep
      cases hstep
      constructor
      · intro hlimit
        omega
      · intro hlimit hover
        rfl
  | case2 z input output z' input' output' hstep ih =>
    intro houtput
    have hfits : maxPayload = 0 ∨
        output.length + (Z.inflate z input chunkSize).output.length ≤ maxPayload := by
      by_contra hexceeds
      rw [inflateStepWith_oversize (by omega) (by omega) (by omega)] at hstep
      cases hstep
    obtain ⟨result₁, stream₁, hdone, -⟩ | ⟨z₁, hmore, hrun⟩ := D.inflateStepWith_run hsize hfits
    · rw [hdone] at hstep
      cases hstep
    · rw [hmore] at hstep
      cases hstep
      rw [List.length_append] at ih
      simp only [hrun, List.length_append, ← List.append_assoc, ← Nat.add_assoc]
      exact ih hfits

end Decoder

theorem resetAfterMessage_failed {r : InflateResult × Bytes × Option Z.Inflate}
    (hfailed : r.1 ≠ .success) (resetAfter : Bool) : Z.resetAfterMessage resetAfter r = r := by
  unfold resetAfterMessage
  split
  · exact absurd rfl hfailed
  · rfl

theorem resetAfterMessage_success {r : InflateResult × Bytes × Option Z.Inflate}
    {resetAfter : Bool} (hsuccess : (Z.resetAfterMessage resetAfter r).1 = .success) :
    r.1 = .success ∧ (Z.resetAfterMessage resetAfter r).2.1 = r.2.1 := by
  by_cases hfailed : r.1 = .success
  · refine ⟨hfailed, ?_⟩
    unfold resetAfterMessage
    split
    · split
      · split <;> rfl
      · rfl
    · rfl
  · rw [resetAfterMessage_failed hfailed] at hsuccess
    exact absurd hsuccess hfailed

/-- A message that fits in memory is the run of its input, or is too large,
whatever the chunk. -/
theorem inflateMessageWith_run (D : Z.Decoder) {z : Z.Inflate} {stream : Option Z.Inflate}
    {data : Bytes} (hstream : stream.or Z.inflateInit = some z)
    (hdata : data.length ≤ unsignedMax - deflateTrailer.length) (maxPayload : ℕ)
    (resetAfter : Bool) :
    (∀ chunkSize, 0 < chunkSize →
        Z.inflateMessageWith chunkSize stream data maxPayload resetAfter =
          Z.resetAfterMessage resetAfter (D.run z (data ++ deflateTrailer))) ∧
      (maxPayload = 0 ∨ (D.run z (data ++ deflateTrailer)).2.1.length ≤ maxPayload) ∨
    ∀ chunkSize, 0 < chunkSize →
      (Z.inflateMessageWith chunkSize stream data maxPayload resetAfter).1 = .payloadTooLarge := by
  have hloop (chunkSize : ℕ) (hsize : 0 < chunkSize) :=
    D.inflateLoopWith_run hsize maxPayload z (data ++ deflateTrailer) [] (.inr (Nat.zero_le _))
  simp only [List.length_nil, Nat.zero_add, List.nil_append] at hloop
  simp only [Z.inflateMessageWith_of_stream hstream hdata]
  by_cases hfits : maxPayload = 0 ∨ (D.run z (data ++ deflateTrailer)).2.1.length ≤ maxPayload
  · left
    refine ⟨?_, hfits⟩
    intro chunkSize hsize
    rw [(hloop chunkSize hsize).1 hfits]
  · right
    intro chunkSize hsize
    have htoo := (hloop chunkSize hsize).2 (by omega) (by omega)
    rw [resetAfterMessage_failed (by rw [htoo]; decide)]
    exact htoo

/-- A successful message is within the limit, and is decoded in full. -/
theorem inflateMessageWith_success (D : Z.Decoder) {chunkSize : ℕ} (hsize : 0 < chunkSize)
    {stream : Option Z.Inflate} {data : Bytes} {maxPayload : ℕ} {resetAfter : Bool}
    (hsuccess : (Z.inflateMessageWith chunkSize stream data maxPayload resetAfter).1 = .success) :
    (maxPayload = 0 ∨
      (Z.inflateMessageWith chunkSize stream data maxPayload resetAfter).2.1.length ≤ maxPayload) ∧
    ∃ z, stream.or Z.inflateInit = some z ∧
      Decodes D z (data ++ deflateTrailer) (data.length + 4)
        (Z.inflateMessageWith chunkSize stream data maxPayload resetAfter).2.1 := by
  cases hstream : stream.or Z.inflateInit with
  | none =>
    rw [inflateMessageWith, hstream] at hsuccess
    cases hsuccess
  | some z =>
    by_cases hdata : unsignedMax - deflateTrailer.length < data.length
    · simp only [inflateMessageWith, hstream, if_pos hdata] at hsuccess
      cases hsuccess
    · obtain ⟨hrun, hfits⟩ | htoo :=
        inflateMessageWith_run D hstream (Nat.not_lt.mp hdata) maxPayload resetAfter
      · rw [hrun chunkSize hsize] at hsuccess ⊢
        obtain ⟨hran, houtput⟩ := resetAfterMessage_success hsuccess
        have hdecodes := D.run_success z _ hran
        rw [List.length_append] at hdecodes
        rw [houtput]
        exact ⟨hfits, z, rfl, hdecodes⟩
      · rw [htoo chunkSize hsize] at hsuccess
        cases hsuccess

variable (Z)

/-- The result of a message does not depend on the output chunk; neither do the
output and the stream, unless the message is too large. A successful message is
decoded in full. -/
theorem inflateMessage_anyChunk (D : Z.Decoder) {chunkSize : ℕ} (hsize : 0 < chunkSize)
    (stream : Option Z.Inflate) (data : Bytes) (maxPayload : ℕ) (resetAfter : Bool) :
    (Z.inflateMessageWith chunkSize stream data maxPayload resetAfter).1 =
        (Z.inflateMessage stream data maxPayload resetAfter).1 ∧
      ((Z.inflateMessage stream data maxPayload resetAfter).1 ≠ .payloadTooLarge →
        Z.inflateMessageWith chunkSize stream data maxPayload resetAfter =
          Z.inflateMessage stream data maxPayload resetAfter) ∧
      ((Z.inflateMessage stream data maxPayload resetAfter).1 = .success →
        (maxPayload = 0 ∨
          (Z.inflateMessage stream data maxPayload resetAfter).2.1.length ≤ maxPayload) ∧
        ∃ z, stream.or Z.inflateInit = some z ∧
          Decodes D z (data ++ deflateTrailer) (data.length + 4)
            (Z.inflateMessage stream data maxPayload resetAfter).2.1) := by
  have hchunk : 0 < zlibChunkSize := by decide
  unfold inflateMessage
  rw [← and_assoc]
  refine ⟨?_, inflateMessageWith_success D hchunk⟩
  cases hstream : stream.or Z.inflateInit with
  | none => simp [inflateMessageWith, hstream]
  | some z =>
    by_cases hdata : unsignedMax - deflateTrailer.length < data.length
    · simp [inflateMessageWith, hstream, hdata]
    · obtain ⟨hrun, -⟩ | htoo :=
        inflateMessageWith_run D hstream (Nat.not_lt.mp hdata) maxPayload resetAfter
      · rw [hrun chunkSize hsize, hrun zlibChunkSize hchunk]
        exact ⟨rfl, fun _ => rfl⟩
      · rw [htoo chunkSize hsize, htoo zlibChunkSize hchunk]
        exact ⟨rfl, fun hne => absurd rfl hne⟩

/-- A stream that knows one message: two letters a. -/
structure LetterStream where
  /-- The output that found no room. -/
  pending : Bytes := []
  /-- Whether the message was read. -/
  read : Bool := false
  dictionary : Bytes := []
  deriving DecidableEq

/-- Two letters a, deflated with fixed codes and flushed, as far as the trailer. -/
def lettersDeflated : Bytes := [0x4a, 0x4c, 0x04, 0x00]

namespace LetterStream

/-- The output that the stream has ready once it has read the input. -/
def ready (z : LetterStream) (input : Bytes) : Bytes :=
  z.pending ++ if input = [] then [] else [0x61, 0x61]

/-- The stream once it has read the input and delivered some of its output. -/
def delivered (z : LetterStream) (input output rest : Bytes) : LetterStream :=
  { pending := rest, read := z.read || input ≠ [], dictionary := z.dictionary ++ output }

/-- The inputs that the stream knows. -/
abbrev Knows (z : LetterStream) (input : Bytes) : Prop :=
  input = [] ∨ z.read = false ∧ input = lettersDeflated ++ deflateTrailer

theorem ready_length (z : LetterStream) {input : Bytes} (h : z.Knows input) :
    (z.ready input).length ≤ z.pending.length + input.length := by
  rcases h with rfl | ⟨-, rfl⟩
  · simp [ready]
  · simp [ready, lettersDeflated, deflateTrailer]

/-- `inflate` on this stream. -/
def inflate (z : LetterStream) (input : Bytes) (room : ℕ) : ZResult LetterStream :=
  if z.Knows input then
    { status := .ok
      consumed := input.length
      output := (z.ready input).take room
      stream := z.delivered input ((z.ready input).take room) ((z.ready input).drop room) }
  else { status := .error, consumed := 0, output := [], stream := z }

/-- Its decodings. -/
def decode (z : LetterStream) (input : Bytes) : Decoding LetterStream :=
  if z.Knows input then
    { output := z.ready input
      consumed := input.length
      ending := .starved
      stream := z.delivered input (z.ready input) [] }
  else { output := [], consumed := 0, ending := .corrupt, stream := z }

theorem decode_nil (z : LetterStream) :
    z.decode [] =
      { output := z.pending
        consumed := 0
        ending := .starved
        stream := { z with pending := [], dictionary := z.dictionary ++ z.pending } } := by
  simp [decode, delivered, ready]

/-- A call finishes the decoding, or leaves what found no room to the next. -/
theorem inflate_decode (z : LetterStream) {input : Bytes} (h : z.Knows input) (room : ℕ) :
    (z.decode input).Finishes (z.inflate input room) ∨
      ((z.inflate input room).output.length = room ∧
        (z.inflate input room).stream.decode [] =
          (z.decode input).rest (z.inflate input room)) := by
  have hdecode : z.decode input =
      { output := z.ready input
        consumed := input.length
        ending := .starved
        stream := z.delivered input (z.ready input) [] } := if_pos h
  simp only [hdecode, inflate, if_pos h]
  by_cases hroom : (z.ready input).length ≤ room
  · left
    constructor
    · exact List.take_of_length_le hroom
    · rfl
    · simp only [List.take_of_length_le hroom, List.drop_of_length_le hroom]
    · exact .inl rfl
  · right
    have hlength : ((z.ready input).take room).length = room := by
      rw [List.length_take]
      omega
    refine ⟨hlength, ?_⟩
    rw [decode_nil]
    simp only [Decoding.rest, delivered, hlength, List.append_assoc, List.take_append_drop,
      Nat.sub_self]

end LetterStream

/-- zlib on such streams; nothing is deflated. -/
abbrev letters : Zlib where
  Inflate := LetterStream
  Deflate := Unit
  inflateInit := some {}
  inflateReset := fun _ => some {}
  inflateGetDictionary := fun z => some z.dictionary
  inflateSetDictionary := fun z dictionary => some { z with dictionary := dictionary }
  inflate := LetterStream.inflate
  deflateInit := fun _ => none
  deflateReset := fun _ => none
  deflate := fun z _ _ => { status := .error, consumed := 0, output := [], stream := z }
  untouched := fun z => !z.read && z.pending.isEmpty
  owed := fun z => z.pending.length
  expansion := 1
  deflateOwed := fun _ => 0
  deflateExpansion := 0
  inflate_consumed := by
    intro z input room
    unfold LetterStream.inflate
    split_ifs <;> simp
  inflate_output := by
    intro z input room
    unfold LetterStream.inflate
    split_ifs <;> simp
  inflate_bounded := by
    intro z input room
    unfold LetterStream.inflate
    split_ifs with h
    · have hready := z.ready_length h
      simp only [LetterStream.delivered, List.length_take, List.length_drop]
      omega
    · simp
  inflate_streamEnd := by
    intro z input room
    unfold LetterStream.inflate
    split_ifs <;> simp
  inflate_untouched := by
    intro z input room hz
    unfold LetterStream.inflate
    split_ifs with h
    · intro hconsumed
      have hempty : input = [] := List.length_eq_zero_iff.mp hconsumed
      simp only [Bool.and_eq_true, Bool.not_eq_true', List.isEmpty_iff] at hz
      simp [LetterStream.delivered, LetterStream.ready, hempty, hz]
    · exact fun _ => hz
  inflateReset_untouched := by simp
  inflateSetDictionary_untouched := by
    intro z d z' h hz
    cases h
    exact hz
  deflate_output := Zlib.sample.deflate_output
  deflate_bounded := Zlib.sample.deflate_bounded

/-- These streams keep the promises of `inflate`. -/
def lettersDecoder : letters.Decoder where
  decode := LetterStream.decode
  history := fun z => z.dictionary
  decode_starved := by
    intro z input
    unfold LetterStream.decode
    split_ifs <;> simp
  decode_waiting := by
    intro z input hending
    by_cases h : z.Knows input
    · rw [LetterStream.decode_nil]
      simp [LetterStream.decode, h, LetterStream.delivered]
    · simp [LetterStream.decode, h] at hending
  inflate_decodes := by
    intro z input room _
    by_cases h : z.Knows input
    · obtain hfinishes | ⟨hfull, hrest⟩ := z.inflate_decode h room
      · exact .inl hfinishes
      · right
        have hconsumed : (z.inflate input room).consumed = input.length := by
          simp [LetterStream.inflate, h]
        refine ⟨?_, hfull, ?_, ?_, ?_⟩
        · simp [letters, LetterStream.inflate, h]
        · simp [letters, LetterStream.inflate, LetterStream.decode, h, List.take_prefix]
        · simp [letters, LetterStream.inflate, LetterStream.decode, h]
        · simp only [letters, hconsumed, List.drop_length]
          exact hrest
    · left
      simp only [letters, LetterStream.decode, LetterStream.inflate, if_neg h]
      exact ⟨rfl, rfl, rfl, rfl⟩
  history_getDictionary := by
    intro z d h
    cases h
    rfl
  history_reset := by
    intro z z' h
    cases h
    rfl
  history_setDictionary := by
    intro z d z' _ h
    cases h
    rfl
  decode_untouched := by
    intro z z' hz hz' hhistory
    simp only [Bool.and_eq_true, Bool.not_eq_true', List.isEmpty_iff] at hz hz'
    have hsame : z = z' := by
      cases z
      cases z'
      simp_all
    rw [hsame]

/-- Under a limit of one byte, 32 KiB are refused whole. -/
theorem letters_whole :
    letters.inflateLoopWith zlibChunkSize 1 {} (lettersDeflated ++ deflateTrailer) [] =
      (.payloadTooLarge, [], some {}) :=
  letters.inflateLoopWith_done rfl

/-- A chunk of one byte stores the first letter before the second is refused. -/
theorem letters_bytewise :
    letters.inflateLoopWith 1 1 {} (lettersDeflated ++ deflateTrailer) [] =
      (.payloadTooLarge, [0x61], some {}) := by
  have hfirst : letters.inflateStepWith 1 1 {} (lettersDeflated ++ deflateTrailer) [] =
      .more { pending := [0x61], read := true, dictionary := [0x61] } [] [0x61] := rfl
  rw [letters.inflateLoopWith_more hfirst]
  exact letters.inflateLoopWith_done rfl

/-- The output that a refused message leaves depends on the chunk. -/
theorem inflateMessage_refused_output :
    ¬∀ (Z : Zlib) (_ : Z.Decoder) (chunkSize : ℕ), 0 < chunkSize →
      ∀ (stream : Option Z.Inflate) (data : Bytes) (maxPayload : ℕ) (resetAfter : Bool),
        (Z.inflateMessageWith chunkSize stream data maxPayload resetAfter).1 =
            (Z.inflateMessage stream data maxPayload resetAfter).1 ∧
          (Z.inflateMessageWith chunkSize stream data maxPayload resetAfter).2.1 =
            (Z.inflateMessage stream data maxPayload resetAfter).2.1 := by
  intro h
  have hsame := (h letters lettersDecoder 1 Nat.one_pos (some {}) lettersDeflated 1 false).2
  have hfits : lettersDeflated.length ≤ unsignedMax - deflateTrailer.length := by decide
  have hstream : (some {} : Option LetterStream).or letters.inflateInit = some {} := rfl
  rw [inflateMessage, letters.inflateMessageWith_of_stream hstream hfits,
    letters.inflateMessageWith_of_stream hstream hfits, letters_whole, letters_bytewise] at hsame
  simp [resetAfterMessage] at hsame

/-- The message of two letters is inflated alike by chunks of one byte. -/
theorem letters_anyChunk :
    (letters.inflateMessageWith 1 none lettersDeflated 0 false).1 =
        (letters.inflateMessage none lettersDeflated 0 false).1 ∧
      ((letters.inflateMessage none lettersDeflated 0 false).1 ≠ .payloadTooLarge →
        letters.inflateMessageWith 1 none lettersDeflated 0 false =
          letters.inflateMessage none lettersDeflated 0 false) ∧
      ((letters.inflateMessage none lettersDeflated 0 false).1 = .success →
        (0 = 0 ∨ (letters.inflateMessage none lettersDeflated 0 false).2.1.length ≤ 0) ∧
        ∃ z, none.or letters.inflateInit = some z ∧
          Decodes lettersDecoder z (lettersDeflated ++ deflateTrailer)
            (lettersDeflated.length + 4)
            (letters.inflateMessage none lettersDeflated 0 false).2.1) :=
  inflateMessage_anyChunk letters lettersDecoder Nat.one_pos none lettersDeflated 0 false

end Zlib

end Eiows
