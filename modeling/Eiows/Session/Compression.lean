import Eiows.Protocol.Masking
import Mathlib.Data.Prod.Lex
import Mathlib.Order.WellFounded

/-!
# Compression contexts

`CompressionContext` drives zlib's raw inflate and deflate streams. zlib itself
is a parameter: `Zlib` lists the calls that the sources make together with the
documented facts that bound them, so that the loops around `inflate` and
`deflate` are total functions.
-/

namespace Eiows

/-- The return values that the sources distinguish. `error` stands for every
other code. -/
inductive ZStatus where
  | ok
  | bufError
  | streamEnd
  | error
  deriving DecidableEq, Repr

/-- One call of `inflate` or `deflate`. -/
structure ZResult (S : Type) where
  /-- The return code. -/
  status : ZStatus
  /-- How far `next_in` advanced. -/
  consumed : ℕ
  /-- The bytes stored at `next_out`. -/
  output : Bytes
  /-- The stream after the call. -/
  stream : S

/-- zlib, as far as the sources use it. Every call is a function of the stream
and its arguments; `none` is a result other than `Z_OK`. -/
structure Zlib where
  /-- A raw inflate stream. -/
  Inflate : Type
  /-- A raw deflate stream. -/
  Deflate : Type
  /-- `inflateInit2(stream, -15)`. -/
  inflateInit : Option Inflate
  /-- `inflateReset`. -/
  inflateReset : Inflate → Option Inflate
  /-- `inflateGetDictionary`. -/
  inflateGetDictionary : Inflate → Option Bytes
  /-- `inflateSetDictionary`. -/
  inflateSetDictionary : Inflate → Bytes → Option Inflate
  /-- `inflate(stream, Z_SYNC_FLUSH)` with the given input and output room. -/
  inflate : Inflate → Bytes → ℕ → ZResult Inflate
  /-- `deflateInit2` with the given window bits. -/
  deflateInit : ℕ → Option Deflate
  /-- `deflateReset`. -/
  deflateReset : Deflate → Option Deflate
  /-- `deflate(stream, Z_SYNC_FLUSH)` with the given input and output room. -/
  deflate : Deflate → Bytes → ℕ → ZResult Deflate
  /-- Whether a stream has read no input since it was initialised or reset. -/
  untouched : Inflate → Bool
  /-- The output that a stream can still produce without further input. -/
  owed : Inflate → ℕ
  /-- The greatest expansion of one input byte. -/
  expansion : ℕ
  /-- The output that a deflate stream can still produce without further input. -/
  deflateOwed : Deflate → ℕ
  /-- The greatest expansion of one deflate input byte. -/
  deflateExpansion : ℕ
  inflate_consumed : ∀ z input room, (inflate z input room).consumed ≤ input.length
  inflate_output : ∀ z input room, (inflate z input room).output.length ≤ room
  inflate_bounded : ∀ z input room, (inflate z input room).output.length +
    owed (inflate z input room).stream ≤ owed z + expansion * (inflate z input room).consumed
  inflate_streamEnd : ∀ z input room, untouched z = true →
    (inflate z input room).status = .streamEnd → 0 < (inflate z input room).consumed
  inflate_untouched : ∀ z input room, untouched z = true →
    (inflate z input room).consumed = 0 → untouched (inflate z input room).stream = true
  inflateReset_untouched : ∀ z z', inflateReset z = some z' → untouched z' = true
  inflateSetDictionary_untouched : ∀ z d z', inflateSetDictionary z d = some z' →
    untouched z = true → untouched z' = true
  deflate_output : ∀ z input room, (deflate z input room).output.length ≤ room
  deflate_bounded : ∀ z input room, (deflate z input room).consumed ≤ input.length ∧
    (deflate z input room).output.length + deflateOwed (deflate z input room).stream ≤
      deflateOwed z + deflateExpansion * (deflate z input room).consumed

/-- `InflateResult`. -/
inductive InflateResult where
  | success
  | invalidData
  | payloadTooLarge
  | internalError
  deriving DecidableEq, Repr

/-- `closeCodeForInflateResult`. -/
def closeCodeForInflateResult : InflateResult → ℕ
  | .payloadTooLarge => 1009
  | .internalError => 1011
  | _ => 1007

/-- `ZLIB_CHUNK_SIZE`. -/
def zlibChunkSize : ℕ := 32 * 1024

/-- `DEFLATE_TRAILER`. -/
def deflateTrailer : Bytes := [0x00, 0x00, 0xff, 0xff]

/-- `std::numeric_limits<unsigned int>::max()`, which is also zlib's `uInt`. -/
def unsignedMax : ℕ := 2 ^ 32 - 1

namespace Zlib

variable (Z : Zlib)

/-- `resetInflater`: a stream that cannot be reset is released. -/
def resetInflater : Option Z.Inflate → Bool × Option Z.Inflate
  | none => (true, none)
  | some z =>
    match Z.inflateReset z with
    | some z' => (true, some z')
    | none => (false, none)

/-- `restartInflater`: reset after a final block, keeping the LZ77 history. -/
def restartInflater (z : Z.Inflate) : Bool × Option Z.Inflate :=
  match Z.inflateGetDictionary z with
  | none => (false, some z)
  | some dictionary =>
    match Z.inflateReset z with
    | none => (false, none)
    | some z' =>
      if dictionary = [] then (true, some z')
      else
        match Z.inflateSetDictionary z' dictionary with
        | none => (false, some z')
        | some z'' => (true, some z'')

/-- A successful restart leaves a stream that has read nothing. -/
theorem restartInflater_untouched {z z' : Z.Inflate}
    (h : Z.restartInflater z = (true, some z')) : Z.untouched z' = true := by
  unfold restartInflater at h
  split at h
  · cases h
  · split at h
    · cases h
    · rename_i z₁ hreset
      have huntouched := Z.inflateReset_untouched _ _ hreset
      split at h
      · cases h; exact huntouched
      · split at h
        · cases h
        · rename_i z₂ hset
          cases h
          exact Z.inflateSetDictionary_untouched _ _ _ hset huntouched

/-- One iteration of the loop of `inflateMessage`: a result with the output so
far and the stream, or the state of the next iteration. -/
inductive InflateStep where
  | done (result : InflateResult) (output : Bytes) (stream : Option Z.Inflate)
  | more (stream : Z.Inflate) (input output : Bytes)

/-- The body of the loop of `inflateMessage`, with an output chunk of any size. -/
def inflateStepWith (chunkSize maxPayload : ℕ) (z : Z.Inflate) (input output : Bytes) :
    Z.InflateStep :=
  let r := Z.inflate z input chunkSize
  if r.output ≠ [] ∧ maxPayload ≠ 0 ∧ maxPayload < output.length + r.output.length then
    .done .payloadTooLarge output (Z.resetInflater r.stream).2
  else
    match r.status with
    | .error => .done .invalidData (output ++ r.output) (Z.resetInflater r.stream).2
    | .streamEnd =>
      match Z.restartInflater r.stream with
      | (true, some z') => .more z' (input.drop r.consumed) (output ++ r.output)
      | (_, z') => .done .internalError (output ++ r.output) (Z.resetInflater z').2
    | _ =>
      if input.drop r.consumed = [] ∧ r.output.length ≠ chunkSize then
        .done .success (output ++ r.output) (some r.stream)
      else if r.consumed = 0 ∧ r.output = [] then
        .done .invalidData (output ++ r.output) (Z.resetInflater r.stream).2
      else .more r.stream (input.drop r.consumed) (output ++ r.output)

/-- An iteration that continues either restarted after a final block or made
progress. -/
theorem inflateStepWith_more {chunkSize maxPayload : ℕ} {z z' : Z.Inflate} {input output input' output' : Bytes}
    (h : Z.inflateStepWith chunkSize maxPayload z input output = .more z' input' output') :
    input' = input.drop (Z.inflate z input chunkSize).consumed ∧
      output' = output ++ (Z.inflate z input chunkSize).output ∧
      (((Z.inflate z input chunkSize).status = .streamEnd ∧
          Z.restartInflater (Z.inflate z input chunkSize).stream = (true, some z')) ∨
        ((Z.inflate z input chunkSize).status ≠ .streamEnd ∧
          z' = (Z.inflate z input chunkSize).stream ∧
          (0 < (Z.inflate z input chunkSize).consumed ∨
            0 < (Z.inflate z input chunkSize).output.length))) := by
  unfold inflateStepWith at h
  simp only at h
  split at h
  · cases h
  · split at h
    · cases h
    · rename_i hstatus
      split at h
      · rename_i z₁ hrestart
        cases h
        exact ⟨rfl, rfl, .inl ⟨hstatus, hrestart⟩⟩
      · cases h
    · rename_i hend
      split at h
      · cases h
      · split at h
        · cases h
        · rename_i hidle
          cases h
          refine ⟨rfl, rfl, .inr ⟨hend, rfl, ?_⟩⟩
          rw [List.length_pos_iff]
          by_contra hno
          exact hidle ⟨by omega, by_contra fun hne => hno (.inr hne)⟩

/-- The units of work left for a stream: the input, and one more when a final
block may be signalled before any of it is read. -/
def inflateUnits (z : Z.Inflate) (input : Bytes) : ℕ :=
  input.length + if Z.untouched z = true then 0 else 1

theorem inflateUnits_restart {z z' : Z.Inflate} {input : Bytes} {room : ℕ}
    (hend : (Z.inflate z input room).status = .streamEnd) (hz' : Z.untouched z' = true) :
    Z.inflateUnits z' (input.drop (Z.inflate z input room).consumed) <
      Z.inflateUnits z input := by
  have hle := Z.inflate_consumed z input room
  simp only [inflateUnits, hz', if_true, List.length_drop]
  by_cases hz : Z.untouched z = true
  · have hpos := Z.inflate_streamEnd z input room hz hend
    rw [if_pos hz]
    omega
  · rw [if_neg hz]
    omega

theorem inflateUnits_le (z : Z.Inflate) (input : Bytes) (room : ℕ) :
    Z.inflateUnits (Z.inflate z input room).stream
      (input.drop (Z.inflate z input room).consumed) ≤ Z.inflateUnits z input := by
  have hle := Z.inflate_consumed z input room
  have huntouched := Z.inflate_untouched z input room
  simp only [inflateUnits, List.length_drop]
  by_cases hz : Z.untouched z = true
  · by_cases hzero : (Z.inflate z input room).consumed = 0
    · simp [hz, huntouched hz hzero]
    · rw [if_pos hz]
      split_ifs <;> omega
  · rw [if_neg hz]
    split_ifs <;> omega

/-- The loop's measure: units of work, then output still owed, then input. -/
def inflateMeasure (z : Z.Inflate) (input : Bytes) : ℕ ×ₗ ℕ ×ₗ ℕ :=
  toLex (Z.inflateUnits z input, toLex (Z.owed z + Z.expansion * input.length, input.length))

/-- An iteration that continues decreases the measure. -/
theorem inflateStepWith_decreases {chunkSize maxPayload : ℕ} {z z' : Z.Inflate}
    {input output input' output' : Bytes}
    (h : Z.inflateStepWith chunkSize maxPayload z input output = .more z' input' output') :
    Z.inflateMeasure z' input' < Z.inflateMeasure z input := by
  obtain ⟨rfl, -, ⟨hend, hrestart⟩ | ⟨-, rfl, hprogress⟩⟩ := Z.inflateStepWith_more h
  · exact Prod.Lex.toLex_lt_toLex.mpr
      (.inl (Z.inflateUnits_restart hend (Z.restartInflater_untouched hrestart)))
  · have hunits := Z.inflateUnits_le z input chunkSize
    have hbound := Z.inflate_bounded z input chunkSize
    have hle := Z.inflate_consumed z input chunkSize
    have hexpand : Z.expansion * (input.drop (Z.inflate z input chunkSize).consumed).length +
        Z.expansion * (Z.inflate z input chunkSize).consumed = Z.expansion * input.length := by
      rw [← Nat.mul_add, List.length_drop, Nat.sub_add_cancel hle]
    rcases hunits.lt_or_eq with hlt | heq
    · exact Prod.Lex.toLex_lt_toLex.mpr (.inl hlt)
    · refine Prod.Lex.toLex_lt_toLex.mpr (.inr ⟨heq, Prod.Lex.toLex_lt_toLex.mpr ?_⟩)
      by_cases hout : 0 < (Z.inflate z input chunkSize).output.length
      · exact .inl (by omega)
      · have hpos : 0 < (Z.inflate z input chunkSize).consumed := by omega
        rcases Nat.lt_or_ge
          (Z.owed (Z.inflate z input chunkSize).stream +
            Z.expansion * (input.drop (Z.inflate z input chunkSize).consumed).length)
          (Z.owed z + Z.expansion * input.length) with hlt | hge
        · exact .inl hlt
        · exact .inr ⟨by omega, by simp only [List.length_drop]; omega⟩

/-- The loop of `inflateMessage`, with an output chunk of any size. -/
def inflateLoopWith (chunkSize maxPayload : ℕ) (z : Z.Inflate) (input output : Bytes) :
    InflateResult × Bytes × Option Z.Inflate :=
  match _h : Z.inflateStepWith chunkSize maxPayload z input output with
  | .done result output stream => (result, output, stream)
  | .more z' input' output' => inflateLoopWith chunkSize maxPayload z' input' output'
  termination_by Z.inflateMeasure z input
  decreasing_by exact Z.inflateStepWith_decreases _h

theorem inflateLoopWith_done {chunkSize maxPayload : ℕ} {z : Z.Inflate}
    {input output output' : Bytes} {result : InflateResult} {stream : Option Z.Inflate}
    (h : Z.inflateStepWith chunkSize maxPayload z input output = .done result output' stream) :
    Z.inflateLoopWith chunkSize maxPayload z input output = (result, output', stream) := by
  rw [inflateLoopWith]
  split <;> simp_all

theorem inflateLoopWith_more {chunkSize maxPayload : ℕ} {z z' : Z.Inflate}
    {input input' output output' : Bytes}
    (h : Z.inflateStepWith chunkSize maxPayload z input output = .more z' input' output') :
    Z.inflateLoopWith chunkSize maxPayload z input output =
      Z.inflateLoopWith chunkSize maxPayload z' input' output' := by
  rw [inflateLoopWith]
  split <;> simp_all

/-- The end of `inflateMessage`: a successful message may reset the stream. -/
def resetAfterMessage (resetAfter : Bool) :
    InflateResult × Bytes × Option Z.Inflate → InflateResult × Bytes × Option Z.Inflate
  | (.success, output, stream) =>
    if resetAfter then
      match Z.resetInflater stream with
      | (true, stream) => (.success, output, stream)
      | (false, stream) => (.internalError, output, stream)
    else (.success, output, stream)
  | failed => failed

/-- `CompressionContext::inflateMessage`, on the context's inflate stream, with an
output chunk of any size. The stream is initialised on first use. -/
def inflateMessageWith (chunkSize : ℕ) (stream : Option Z.Inflate) (data : Bytes)
    (maxPayload : ℕ) (resetAfter : Bool) : InflateResult × Bytes × Option Z.Inflate :=
  match stream.or Z.inflateInit with
  | none => (.internalError, [], none)
  | some z =>
    if unsignedMax - deflateTrailer.length < data.length then (.internalError, [], some z)
    else
      Z.resetAfterMessage resetAfter
        (Z.inflateLoopWith chunkSize maxPayload z (data ++ deflateTrailer) [])

/-- `CompressionContext::inflateMessage`, with the chunk of the source. -/
def inflateMessage (stream : Option Z.Inflate) (data : Bytes) (maxPayload : ℕ)
    (resetAfter : Bool) : InflateResult × Bytes × Option Z.Inflate :=
  Z.inflateMessageWith zlibChunkSize stream data maxPayload resetAfter

/-- With context takeover the result is that of the loop. -/
theorem inflateMessage_takeover {stream : Option Z.Inflate} {z : Z.Inflate} {data : Bytes}
    {maxPayload : ℕ} (hstream : stream.or Z.inflateInit = some z)
    (hdata : data.length ≤ unsignedMax - deflateTrailer.length) :
    Z.inflateMessage stream data maxPayload false =
      Z.inflateLoopWith zlibChunkSize maxPayload z (data ++ deflateTrailer) [] := by
  simp only [inflateMessage, inflateMessageWith, hstream, if_neg (Nat.not_lt.mpr hdata)]
  unfold resetAfterMessage
  simp only [Bool.false_eq_true, if_false]
  split
  · rename_i output stream h
    exact h.symm
  · rfl

/-- zlib does not fail for reasons of its own, such as a lack of memory. -/
structure Reliable : Prop where
  inflateInit : Z.inflateInit.isSome = true
  inflateReset : ∀ z, (Z.inflateReset z).isSome = true
  inflateGetDictionary : ∀ z, (Z.inflateGetDictionary z).isSome = true
  inflateSetDictionary : ∀ z d, (Z.inflateSetDictionary z d).isSome = true

variable {Z}

theorem Reliable.resetInflater (hz : Z.Reliable) (stream : Option Z.Inflate) :
    (Z.resetInflater stream).1 = true := by
  unfold Zlib.resetInflater
  split
  · rfl
  · rename_i z
    obtain ⟨z', hreset⟩ := Option.isSome_iff_exists.mp (hz.inflateReset z)
    rw [hreset]

theorem Reliable.restartInflater (hz : Z.Reliable) (z : Z.Inflate) :
    ∃ z', Z.restartInflater z = (true, some z') := by
  obtain ⟨dictionary, hdictionary⟩ := Option.isSome_iff_exists.mp (hz.inflateGetDictionary z)
  obtain ⟨z₁, hreset⟩ := Option.isSome_iff_exists.mp (hz.inflateReset z)
  obtain ⟨z₂, hset⟩ := Option.isSome_iff_exists.mp (hz.inflateSetDictionary z₁ dictionary)
  simp only [Zlib.restartInflater, hdictionary, hreset, hset]
  split_ifs
  · exact ⟨z₁, rfl⟩
  · exact ⟨z₂, rfl⟩

theorem Reliable.inflateStepWith (hz : Z.Reliable) {chunkSize maxPayload : ℕ} {z : Z.Inflate}
    {input output output' : Bytes} {result : InflateResult} {stream : Option Z.Inflate}
    (h : Z.inflateStepWith chunkSize maxPayload z input output = .done result output' stream) :
    result ≠ .internalError := by
  unfold Zlib.inflateStepWith at h
  simp only at h
  split at h
  · cases h; decide
  · split at h
    · cases h; decide
    · obtain ⟨z', hrestart⟩ := hz.restartInflater (Z.inflate z input chunkSize).stream
      rw [hrestart] at h
      cases h
    · split at h
      · cases h; decide
      · split at h
        · cases h; decide
        · cases h

/-- The loop of a reliable zlib ends with one of the results for the peer. -/
theorem Reliable.inflateLoopWith (hz : Z.Reliable) (chunkSize maxPayload : ℕ) (z : Z.Inflate)
    (input output : Bytes) :
    (Z.inflateLoopWith chunkSize maxPayload z input output).1 ≠ .internalError := by
  fun_induction Z.inflateLoopWith chunkSize maxPayload z input output with
  | case1 z input output result output' stream h => exact hz.inflateStepWith h
  | case2 z input output z' input' output' h ih => exact ih

/-- A reliable zlib leaves one internal error: a message whose length does not
fit beside the trailer. -/
theorem Reliable.inflateMessage (hz : Z.Reliable) (stream : Option Z.Inflate) (data : Bytes)
    (maxPayload : ℕ) (resetAfter : Bool) :
    (Z.inflateMessage stream data maxPayload resetAfter).1 = .internalError ↔
      2 ^ 32 - 5 < data.length := by
  obtain ⟨z, hstream⟩ : ∃ z, stream.or Z.inflateInit = some z := by
    rw [← Option.isSome_iff_exists, Option.isSome_or, hz.inflateInit, Bool.or_true]
  have hbound : unsignedMax - deflateTrailer.length = 2 ^ 32 - 5 := by decide
  simp only [Zlib.inflateMessage, inflateMessageWith, resetAfterMessage, hstream, hbound]
  split_ifs with hlong hreset
  · exact iff_of_true rfl hlong
  · have hloop := hz.inflateLoopWith zlibChunkSize maxPayload z (data ++ deflateTrailer) []
    simp only [hlong, iff_false]
    split
    · rename_i output stream hresult
      have hok := hz.resetInflater stream
      split <;> simp_all
    · exact hloop
  · have hloop := hz.inflateLoopWith zlibChunkSize maxPayload z (data ++ deflateTrailer) []
    simp only [hlong, iff_false]
    split
    · simp
    · exact hloop

variable (Z)

/-- `ensureDeflater`: a stream with other window bits is replaced. -/
def ensureDeflater (stream : Option (Z.Deflate × ℕ)) (windowBits : ℕ) : Option Z.Deflate :=
  match stream with
  | some (z, bits) => if bits = windowBits then some z else Z.deflateInit windowBits
  | none => Z.deflateInit windowBits

/-- The loop of `CompressionContext::deflateMessage`: `none` when a call does
not return `Z_OK`, with the stream after that call. -/
def deflateLoop (z : Z.Deflate) (input output : Bytes) : Option Bytes × Z.Deflate :=
  match (Z.deflate z input zlibChunkSize).status with
  | .ok =>
    if (Z.deflate z input zlibChunkSize).output.length = zlibChunkSize then
      deflateLoop (Z.deflate z input zlibChunkSize).stream
        (input.drop (Z.deflate z input zlibChunkSize).consumed)
        (output ++ (Z.deflate z input zlibChunkSize).output)
    else
      (some (output ++ (Z.deflate z input zlibChunkSize).output),
        (Z.deflate z input zlibChunkSize).stream)
  | _ => (none, (Z.deflate z input zlibChunkSize).stream)
  termination_by Z.deflateOwed z + Z.deflateExpansion * input.length
  decreasing_by
    obtain ⟨hle, hbound⟩ := Z.deflate_bounded z input zlibChunkSize
    have hexpand : Z.deflateExpansion *
          (input.drop (Z.deflate z input zlibChunkSize).consumed).length +
        Z.deflateExpansion * (Z.deflate z input zlibChunkSize).consumed =
          Z.deflateExpansion * input.length := by
      rw [← Nat.mul_add, List.length_drop, Nat.sub_add_cancel hle]
    have hchunk : 0 < zlibChunkSize := by decide
    omega

/-- `resetDeflater`, with the window bits of the stream. -/
def resetDeflater (z : Z.Deflate) (windowBits : ℕ) : Bool × Option (Z.Deflate × ℕ) :=
  match Z.deflateReset z with
  | some z' => (true, some (z', windowBits))
  | none => (false, none)

/-- `CompressionContext::deflateMessage`, on the context's deflate stream:
`none` where the source returns `false`. -/
def deflateMessage (stream : Option (Z.Deflate × ℕ)) (data : Bytes) (windowBits : ℕ)
    (resetAfter : Bool) : Option Bytes × Option (Z.Deflate × ℕ) :=
  match Z.ensureDeflater stream windowBits with
  | none => (none, none)
  | some z =>
    if unsignedMax < data.length then (none, some (z, windowBits))
    else
      match Z.deflateLoop z data [] with
      | (none, z) => (none, (Z.resetDeflater z windowBits).2)
      | (some output, z) =>
        if output.length < deflateTrailer.length ∨
            output.drop (output.length - deflateTrailer.length) ≠ deflateTrailer then
          (none, (Z.resetDeflater z windowBits).2)
        else
          let message := output.take (output.length - deflateTrailer.length)
          if resetAfter then
            match Z.resetDeflater z windowBits with
            | (true, stream) => (some message, stream)
            | (false, stream) => (none, stream)
          else (some message, some (z, windowBits))

end Zlib

/-- `CompressionContext`: the two streams, each initialised on first use. -/
structure CompressionContext (Z : Zlib) where
  /-- `inflationStream`, when `inflaterInitialized`. -/
  inflationStream : Option Z.Inflate := none
  /-- `deflationStream` with `deflaterWindowBits`, when `deflaterInitialized`. -/
  deflationStream : Option (Z.Deflate × ℕ) := none

/-- A zlib that knows one stream: the letter a, deflated with fixed codes and
flushed, as far as its trailer. -/
def Zlib.sample : Zlib where
  Inflate := Bool
  Deflate := Unit
  inflateInit := some false
  inflateReset := fun _ => some false
  inflateGetDictionary := fun z => some (if z then [0x61] else [])
  inflateSetDictionary := fun z _ => some z
  inflate := fun z input room =>
    if z = false ∧ input = [0x4a, 0x04, 0x00, 0x00, 0x00, 0xff, 0xff] ∧ 0 < room then
      { status := .ok, consumed := 7, output := [0x61], stream := true }
    else { status := .error, consumed := 0, output := [], stream := z }
  deflateInit := fun _ => none
  deflateReset := fun _ => none
  deflate := fun z _ _ => { status := .error, consumed := 0, output := [], stream := z }
  untouched := fun z => !z
  owed := fun _ => 0
  expansion := 1
  deflateOwed := fun _ => 0
  deflateExpansion := 0
  inflate_consumed := by
    intro z input room
    split_ifs with h
    · rw [h.2.1]; decide
    · exact Nat.zero_le _
  inflate_output := by
    intro z input room
    split_ifs with h
    · exact h.2.2
    · exact Nat.zero_le _
  inflate_bounded := by
    intro z input room
    split_ifs <;> simp
  inflate_streamEnd := by
    intro z input room
    split_ifs <;> simp
  inflate_untouched := by
    intro z input room
    split_ifs <;> simp
  inflateReset_untouched := by simp
  inflateSetDictionary_untouched := by
    intro z d z' h hz
    cases h
    exact hz
  deflate_output := by simp
  deflate_bounded := by simp

theorem Zlib.sample_reliable : Zlib.sample.Reliable where
  inflateInit := rfl
  inflateReset := fun _ => rfl
  inflateGetDictionary := fun _ => rfl
  inflateSetDictionary := fun _ _ => rfl

end Eiows
