import Eiows.InPlace.Reachable
import Eiows.Receiver.Following
import Eiows.Receiver.PayloadParts

/-!
# The lengths in a chunk

Which lengths the parser computes with is decided by the chunk and the state before the
call: by `remainingBytes` for a frame that was begun, by the announced length for a
frame whose header was saved, and by the headers of the frames that begin in the chunk
for as long as a receiver reads on.
-/

namespace Eiows

variable {Z : Zlib}

section Parts

variable {w : WebSocketState} {s : Session Z} {r : Receiver Z} {src : Bytes} {h : FrameHeader}
  {n : ℕ} (parts : List ℕ)

/-- One iteration of the loop on a complete header, with the record. -/
theorem parseNext_record_header (hparse : parseHeader src = some h) (hs : s.Rests r) :
    ∃ status, (r.badCompression h = false → status = r.compressionIn h) ∧
      parseNext (recordParts protocolHooks) src w (s, parts) =
        if r.badCompression h || h.malformed then
          (w, Session.forceClose { s with compressionStatus := status }, parts)
        else
          (consumeMessage (recordParts protocolHooks) h.length h.size src w
            ({ s with compressionStatus := status }, parts)).resume (recordParts protocolHooks) := by
  have hat := parseHeader_at hparse
  obtain ⟨status, hchecked, hstatus⟩ := checkCompressed_spec (r := r) hat hs.compression
  refine ⟨status, hstatus, ?_⟩
  have hsame : headerLengthOf (payloadLength src) = h.size := by rw [hat.marker]; rfl
  rw [parseNext_of_complete _ hat.complete, checkCompressed_record, hchecked, Bool.or_assoc,
    hat.malformed, hsame, hat.length]
  rfl

/-- A frame that is not entered leaves the record as it is. -/
theorem parseNext_record_refused (hparse : parseHeader src = some h) (hw : w.Rests r)
    (hs : s.Rests r) (hrefused : r.enters h = false) :
    (parseNext (recordParts protocolHooks) src w (s, parts)).2.2 = parts := by
  have hat := parseHeader_at hparse
  have hopCode : OpCode.ofNibble (getOpCode src) = h.opCode := by rw [hat.nibble]; rfl
  obtain ⟨status, hstatus, hstep⟩ := parseNext_record_header (w := w) parts hparse hs
  rw [hstep]
  split_ifs with hbad
  · rfl
  · obtain ⟨hcompression, hvalid⟩ : r.badCompression h = false ∧ h.malformed = false := by
      simpa using hbad
    have hstops : ∀ w', enterFrame (OpCode.ofNibble (getOpCode src)) (isFin src) w = .ok w' →
        (refuseFrame protocolHooks (OpCode.ofNibble (getOpCode src)) h.length
          { s with compressionStatus := status }).1 = true := by
      intro w' hentered
      rw [hopCode, hat.fin] at hentered
      rw [hopCode, refuseFrame_spec hvalid (hs.holds (hstatus hcompression)).maxPayload]
      by_cases hsequence : r.outOfSequence h = true
      · obtain ⟨w'', herror⟩ := enterFrame_error hw hsequence
        rw [herror] at hentered
        cases hentered
      · have hlong : h.isData = true ∧ payloadLimit r.maxPayload < h.length := by
          by_contra hshort
          have henters := Receiver.enters_iff.mpr ⟨hvalid, hcompression, by simpa using hsequence, hshort⟩
          exact absurd (hrefused.symm.trans henters) (by decide)
        rw [if_pos hlong]
    obtain ⟨w', s', hconsumed⟩ := consumeMessage_record_refused parts h.size hstops
    rw [hconsumed]
    rfl

/-- A frame that is entered has its part recorded, and is then read as without a record. -/
theorem parseNext_record_entered (hparse : parseHeader src = some h) (hw : w.Rests r)
    (hs : s.Rests r) (henters : r.enters h = true) :
    ∃ s', s'.Holds r h [] ∧ s'.events = s.events ∧ ∃ c : Consumed (Session Z × List ℕ),
      parseNext (recordParts protocolHooks) src w (s, parts) = c.resume (recordParts protocolHooks) ∧
        c.map Prod.fst = consumeMessage protocolHooks h.length h.size src w s' ∧
        c.session.2 = parts ++ [h.available src] := by
  obtain ⟨hvalid, hcompression, hsequence, hshort⟩ := Receiver.enters_iff.mp henters
  have hat := parseHeader_at hparse
  have hopCode : OpCode.ofNibble (getOpCode src) = h.opCode := by rw [hat.nibble]; rfl
  obtain ⟨status, hstatus, hstep⟩ := parseNext_record_header (w := w) parts hparse hs
  have hholds := hs.holds (hstatus hcompression)
  obtain ⟨w', hentered, -, -⟩ := enterFrame_ok hw hvalid hsequence
  rw [if_neg (by simp [hcompression, hvalid])] at hstep
  refine ⟨_, hholds, rfl, _, hstep, consumeMessage_recordParts .., ?_⟩
  apply consumeMessage_record
  · rw [hopCode, hat.fin]
    exact hentered
  · rw [hopCode, refuseFrame_spec hvalid hholds.maxPayload, if_neg hshort]

/-- The loop records the parts of the payloads that a receiver comes to. -/
theorem parseNext_record {w : WebSocketState} {s : Session Z} {r : Receiver Z} (parts : List ℕ)
    (src : Bytes) (hwants : w.wantsHead = true) (hw : w.Rests r) (hs : s.Rests r)
    (hr : r.WellFormed) : n ∈ (parseNext (recordParts protocolHooks) src w (s, parts)).2.2 ↔
      n ∈ parts ∨ r.Unmasks src n := by
  cases hparse : parseHeader src with
  | none =>
    rw [or_iff_left (Receiver.not_unmasks_of_incomplete hparse),
      parseNext_of_incomplete _ (short_of_parseHeader hparse)]
    split_ifs <;> rfl
  | some h =>
    cases henters : r.enters h with
    | false =>
      obtain ⟨code, hjudge⟩ := Receiver.judgeHeader_of_not_enters henters
      have hbehind := Receiver.not_unmasks_behind (n := n)
        (Receiver.next_of_refused hs.receiverOpen hparse hjudge) rfl
      rw [parseNext_record_refused parts hparse hw hs henters,
        Receiver.unmasks_iff hs.receiverOpen hparse, or_iff_left hbehind]
      simp [henters]
    | true =>
      obtain ⟨s₁, hholds, hevents, c, hstep, hmap, hrecord⟩ :=
        parseNext_record_entered parts hparse hw hs henters
      have hmem : ∀ rest : Prop, (n ∈ parts ∨ (r.enters h = true ∧ n = h.available src) ∨ rest) ↔
          n ∈ parts ++ [h.available src] ∨ rest := by
        intro rest
        simp [henters, or_assoc]
      rw [hstep, Receiver.unmasks_iff hs.receiverOpen hparse, hmem, ← hrecord]
      have hstops : ∀ w' s', c.map Prod.fst = .stop w' s' →
          (¬∃ r' es k, (Receiver.decoder Z).next r src = some (r', es, k) ∧
            r'.Unmasks (src.drop k) n) →
          (n ∈ (c.resume (recordParts protocolHooks)).2.2 ↔ n ∈ c.session.2 ∨
            ∃ r' es k, (Receiver.decoder Z).next r src = some (r', es, k) ∧
              r'.Unmasks (src.drop k) n) := by
        intro w' s' hstop hnone
        rw [or_iff_left hnone, Consumed.of_map_stop hstop]
        rfl
      obtain ⟨hvalid, hcompression, hsequence, -⟩ := Receiver.enters_iff.mp henters
      by_cases hlong : r.tooLong h = true
      · have hjudge : r.judgeHeader h = some 1009 := by
          simp [Receiver.judgeHeader, hvalid, hcompression, hsequence, hlong]
        obtain ⟨w', s', hconsumed, -⟩ :=
          consumeMessage_tooLong (parseHeader_at hparse) hw hr hholds hvalid hsequence hlong
        refine hstops w' s' (hmap.trans hconsumed) (Receiver.not_unmasks_behind
          (Receiver.next_of_refused hs.receiverOpen hparse hjudge) rfl)
      have hok : r.judgeHeader h = none := Receiver.judgeHeader_eq_none.mpr
        ⟨hvalid, hcompression, hsequence, by simpa using hlong⟩
      by_cases hwhole : h.size + h.length ≤ src.length
      · have hnext := Receiver.next_of_whole hs.receiverOpen hparse hok hwhole
        rcases consumeMessage_whole hparse hw hr hholds hok hwhole rfl with
          ⟨w', s', hconsumed, hended, -⟩ | ⟨w', s', hconsumed, hdelivered⟩
        · exact hstops w' s' (hmap.trans hconsumed)
            (Receiver.not_unmasks_behind hnext hended.receiver)
        · have hrest := parseNext_record c.session.2 (src.drop (h.size + h.length))
            (hdelivered.wantsHead.trans hwants) hdelivered.parser hdelivered.session
            hdelivered.wellFormed
          rw [Consumed.of_map_next (hmap.trans hconsumed)]
          refine hrest.trans (or_congr_right ⟨fun hn => ⟨_, _, _, hnext, hn⟩, ?_⟩)
          rintro ⟨r', es, k, hnext', hn⟩
          cases hnext.symm.trans hnext'
          exact hn
      · have hproper : src.length < h.size + h.length := by omega
        obtain ⟨w', s', hconsumed, -, -⟩ := consumeMessage_part hparse hw hr hholds hok hproper
        refine hstops w' s' (hmap.trans hconsumed) ?_
        rintro ⟨r', es, k, hnext, -⟩
        rw [Receiver.next_of_part hparse hok hproper] at hnext
        cases hnext
  termination_by src.length
  decreasing_by
    have hpos := h.size_pos
    simp only [List.length_drop]
    omega

/-- Bytes of the length that they announce are a header. -/
theorem exists_parseHeader (hlength : src.length = headerLengthOf (payloadLength src)) :
    ∃ h, parseHeader src = some h ∧ h.size = src.length := by
  cases hparse : parseHeader src with
  | none =>
    have hshort := short_of_parseHeader hparse
    have hcases := headerLengthOf_cases (payloadLength src)
    simp only [shortMessageHeader] at hshort
    omega
  | some h =>
    refine ⟨h, rfl, ?_⟩
    rw [FrameHeader.size, ← (parseHeader_at hparse).marker, hlength]

/-- A call of the parser with nothing saved records the rest of the frame that was begun, and
the parts of the frames that begin. -/
theorem Reads.record {pending : Bytes} (hreads : Reads w s r pending) (hspill : w.spill = [])
    (src : Bytes) (hcompletes : InPlace.CompletesWithin w src.length) :
    n ∈ (consume (recordParts protocolHooks) src w (s, parts)).2.2 ↔
      n ∈ parts ∨ (w.wantsHead = false ∧ n = min w.remainingBytes src.length) ∨
        r.Begins pending src n := by
  cases hreads with
  | header hwants hpending hparse hw hs hr =>
    obtain rfl : pending = [] := hpending.symm.trans hspill
    simpa [consume, hwants, hspill, Receiver.Begins] using parseNext_record parts src hwants hw hs hr
  | payload h hwants hnone hparse hok part hrest hproper hremaining hmask hw hs hr =>
    have hne : pending ≠ [] := by
      rintro rfl
      cases hparse
    have hparse' := parseHeader_append src hparse
    have hheader := parseHeader_size_le hparse
    have hpart : part.length = pending.length - h.size := by rw [hrest, List.length_drop]
    have hrecord := consumeContinuation_record protocolHooks src w s parts
    have hmap := consumeContinuation_recordParts protocolHooks src w (s, parts)
    have hstops : ∀ w' s', consumeContinuation protocolHooks src w s = .stop w' s' →
        ¬r.Begins pending src n →
        (n ∈ ((consumeContinuation (recordParts protocolHooks) src w (s, parts)).resume
          (recordParts protocolHooks)).2.2 ↔
            n ∈ parts ++ [min w.remainingBytes src.length] ∨ r.Begins pending src n) := by
      intro w' s' hstop hnot
      rw [or_iff_left hnot, Consumed.of_map_stop (hmap.trans hstop), hrecord]
      rfl
    have hmem : (n ∈ parts ∨ (w.wantsHead = false ∧ n = min w.remainingBytes src.length) ∨
        r.Begins pending src n) ↔
          n ∈ parts ++ [min w.remainingBytes src.length] ∨ r.Begins pending src n := by
      simp [hwants, or_assoc]
    rw [consume, if_neg (by simp [hwants]), hspill, List.nil_append, hmem]
    by_cases hlast : w.remainingBytes ≤ src.length
    · have hnext := Receiver.next_of_whole hs.receiverOpen hparse' hok (by
        rw [List.length_append]
        omega)
      rcases consumeContinuation_last hparse hrest hproper hremaining hmask hspill hw hs hr hok
        (hcompletes hwants hlast) hlast rfl with
          ⟨w', s', hconsumed, hended, -⟩ | ⟨w', s', hconsumed, hdelivered⟩
      · apply hstops w' s' hconsumed
        rw [Receiver.begins_of_next hne hnext]
        exact fun hn => absurd (hended.receiver.symm.trans hn.receiverOpen) (by decide)
      · have hbehind := parseNext_record (n := n) (parts ++ [min w.remainingBytes src.length])
          ((pending ++ src).drop (h.size + h.length)) hdelivered.wantsHead hdelivered.parser
          hdelivered.session hdelivered.wellFormed
        rw [Consumed.of_map_next (hmap.trans hconsumed), hrecord]
        exact hbehind.trans (or_congr_right (Receiver.begins_of_next hne hnext).symm)
    · have hshort : src.length < h.length - part.length := by omega
      obtain ⟨w', s', hconsumed, -, -⟩ := consumeContinuation_part hparse hrest hremaining
        hmask hspill hwants hw hs hr hok hshort
      exact hstops w' s' hconsumed (Receiver.not_begins_of_part hne
        (Receiver.next_of_part hparse' hok (by rw [List.length_append]; omega)))

/-- Where the payload of a begun frame lacks `missing` bytes and `available` bytes of the
chunk are there for it: `n * 4` stays in `int`, and the part below the limit of its loop. -/
def RestFits (variant : UnmaskVariant) (missing available : ℕ) : Prop :=
  (missing ≤ available → missing < 2 ^ 31) ∧
    (available < missing → available < InPlace.unmaskLimit variant)

/-- Less than `2 ^ 31` bytes fit in any case. -/
theorem RestFits.of_short (variant : UnmaskVariant) (missing : ℕ) {available : ℕ}
    (h : available < 2 ^ 31) : RestFits variant missing available := by
  have hlimits := InPlace.unmaskLimit_le variant
  constructor
  · intro hle
    omega
  · intro hlt
    omega

theorem RestFits.zero_left (variant : UnmaskVariant) (available : ℕ) :
    RestFits variant 0 available := by
  constructor <;> omega

/-- A call of the parser with nothing saved computes with lengths that fit exactly when the rest
of the frame that was begun fits, and each frame that begins does. -/
theorem Reads.exact_iff {pending : Bytes} (variant : UnmaskVariant)
    (hreads : Reads w s r pending) (hspill : w.spill = []) (src : Bytes)
    (hparts : ∀ n ∈ parts, n < InPlace.unmaskLimit variant) :
    (InPlace.CompletesWithin w src.length ∧
      ∀ n ∈ (consume (recordParts protocolHooks) src w (s, parts)).2.2,
        n < InPlace.unmaskLimit variant) ↔
    (w.wantsHead = false → RestFits variant w.remainingBytes src.length) ∧
      ∀ n, r.Begins pending src n → n < InPlace.unmaskLimit variant := by
  have hlimits := InPlace.unmaskLimit_le variant
  constructor
  · rintro ⟨hcompletes, hexact⟩
    have hrecord := fun n => hreads.record (n := n) parts hspill src hcompletes
    refine ⟨fun hwants => ⟨hcompletes hwants, fun hlt => ?_⟩,
      fun n hn => hexact n ((hrecord n).mpr (.inr (.inr hn)))⟩
    apply hexact
    exact (hrecord _).mpr (.inr (.inl ⟨hwants, by omega⟩))
  · rintro ⟨hrest, hbegins⟩
    have hcompletes : InPlace.CompletesWithin w src.length := fun hwants => (hrest hwants).1
    refine ⟨hcompletes, fun n hn => ?_⟩
    rcases (hreads.record parts hspill src hcompletes).mp hn with hold | ⟨hwants, rfl⟩ | hbegun
    · exact hparts n hold
    · obtain ⟨hwhole, hpart⟩ := hrest hwants
      omega
    · exact hbegins n hbegun

/-- What follows when the first bytes of a chunk complete a saved header, and no more. The
session ends, and no frame of the chunk is looked at; or the call that reads the rest starts with
the payload of the frame, if it has one. -/
theorem Reads.header_read (variant : UnmaskVariant) {header : Bytes} (rest : Bytes)
    (hreads : Reads w s r w.spill) (hspill : w.spill ≠ [])
    (hparse : parseHeader (w.spill ++ header) = some h) (hsize : h.size = (w.spill ++ header).length) :
    ((consume protocolHooks header w s).2.closing = true ∧ (r.judgeHeader h = none → h.length = 0) ∧
        ∀ n, ¬r.Begins w.spill (header ++ rest) n) ∨
      ∃ r' pending, Reads (consume protocolHooks header w s).1 (consume protocolHooks header w s).2
          r' pending ∧ (consume protocolHooks header w s).1.spill = [] ∧
        (((consume protocolHooks header w s).1.wantsHead = false → RestFits variant
            (consume protocolHooks header w s).1.remainingBytes rest.length) ↔
          (r.judgeHeader h = none → RestFits variant h.length rest.length)) ∧
        ∀ n, r.Begins w.spill (header ++ rest) n ↔ r'.Begins pending rest n := by
  have hopen := hreads.sessionOpen.2
  have hshort : header.length < 2 ^ 31 := by
    have hcases := headerLengthOf_cases h.marker
    rw [List.length_append, FrameHeader.size] at hsize
    omega
  have hstate := (consume_parses hreads hshort).state
  generalize consume protocolHooks header w s = out at hstate ⊢
  have hends : ∀ {delivered : Receiver Z × List Event} {k : ℕ},
      (Receiver.decoder Z).next r (w.spill ++ header) = some (delivered.1, delivered.2, k) →
        delivered.1.closing = true → ∀ n, ¬r.Begins w.spill (header ++ rest) n := by
    intro delivered k hnext hclosing n
    have hnext' := (Receiver.decoder Z).next_append rest hnext
    rw [List.append_assoc] at hnext'
    rw [Receiver.begins_of_next hspill hnext']
    exact fun hn => absurd (hclosing.symm.trans hn.receiverOpen) (by decide)
  cases hjudge : r.judgeHeader h with
  | some code =>
    have hnext := Receiver.next_of_refused hopen hparse hjudge
    rw [(Receiver.decoder Z).drain_of_next hnext, Receiver.drain_of_closing rfl] at hstate
    rcases hstate with hended | hreads'
    · exact .inl ⟨hended.session, fun hno => (by cases hno), hends hnext rfl⟩
    · have hfalse : true = false := hreads'.sessionOpen.2
      cases hfalse
  | none =>
    by_cases hempty : h.length = 0
    · have hnext := Receiver.next_of_whole hopen hparse hjudge (by omega)
      have hnext' := (Receiver.decoder Z).next_append rest hnext
      rw [List.append_assoc] at hnext'
      generalize r.deliver h _ = delivered at hnext hnext'
      have hnil : (w.spill ++ header).drop (h.size + h.length) = [] :=
        List.drop_of_length_le (by omega)
      have hdrained : (Receiver.decoder Z).drain delivered.1 [] = (delivered.1, [], []) :=
        (Receiver.decoder Z).drain_of_next_none (Receiver.next_of_incomplete
          (by simp [parseHeader, shortMessageHeader]))
      rw [(Receiver.decoder Z).drain_of_next hnext, hnil, hdrained] at hstate
      rcases hstate with hended | hreads'
      · exact .inl ⟨hended.session, fun _ => hempty, hends hnext hended.receiver⟩
      · have hreads' : Reads out.1 out.2 delivered.1 [] := hreads'
        obtain ⟨hwants', hspill'⟩ := hreads'.between
        refine .inr ⟨delivered.1, [], hreads', hspill', ?_, fun n => ?_⟩
        · rw [hwants', hempty]
          exact iff_of_true (fun hno => by cases hno) fun _ => RestFits.zero_left variant _
        · have hbehind : (w.spill ++ (header ++ rest)).drop (h.size + h.length) = rest := by
            rw [← List.append_assoc, List.drop_append, hnil, List.nil_append, hsize, hempty]
            simp
          rw [Receiver.begins_of_next hspill hnext', hbehind, Receiver.Begins, if_pos rfl]
    · rw [(Receiver.decoder Z).drain_of_next_none (Receiver.next_of_part hparse hjudge (by omega))]
        at hstate
      rcases hstate with hended | hreads'
      · exact absurd (hended.receiver.symm.trans hopen) (by decide)
      · have hreads' : Reads out.1 out.2 r (w.spill ++ header) := hreads'
        obtain ⟨hwants', hspill', hremaining⟩ := hreads'.inside hparse hsize
        have hne : w.spill ++ header ≠ [] := fun hnil => hspill (List.append_eq_nil_iff.mp hnil).1
        refine .inr ⟨r, w.spill ++ header, hreads', hspill', ?_, fun n => ?_⟩
        · rw [hwants', hremaining]
          simp only [true_imp_iff]
        · rw [Receiver.Begins, Receiver.Begins, if_neg hne, if_neg hspill, List.append_assoc]

/-- Where a chunk goes no further than the saved header, no payload is looked at. -/
theorem Reads.header_only {data : Bytes} (hspill : w.spill ≠ [])
    (hle : (w.spill ++ data).length ≤ headerLengthOf (payloadLength (w.spill ++ data))) :
    (∀ h, parseHeader (w.spill ++ data) = some h → w.spill.length + data.length - h.size = 0) ∧
      (r.Begins w.spill data n → n = 0) := by
  have hheader : ∀ h, parseHeader (w.spill ++ data) = some h →
      w.spill.length + data.length ≤ h.size := by
    intro h hparse
    rw [FrameHeader.size, ← (parseHeader_at hparse).marker, ← List.length_append]
    exact hle
  refine ⟨fun h hparse => Nat.sub_eq_zero_of_le (hheader h hparse), fun hn => ?_⟩
  cases hparse : parseHeader (w.spill ++ data) with
  | none => exact absurd hn (Receiver.not_begins_of_part hspill (Receiver.next_of_incomplete hparse))
  | some h =>
    cases hnext : (Receiver.decoder Z).next r (w.spill ++ data) with
    | none => exact absurd hn (Receiver.not_begins_of_part hspill hnext)
    | some unit =>
      obtain ⟨r', es, k⟩ := unit
      have hlength := ((Receiver.begins_of_next hspill hnext).mp hn).le
      have hunit := Receiver.size_le_of_next hparse hnext
      have hsize := hheader h hparse
      rw [List.length_drop, List.length_append] at hlength
      omega

end Parts

namespace StreamWebSocket

variable {ws : StreamWebSocket Z} {r : Receiver Z} {pending data : Bytes}

/-- The lengths that the parser computes with in a chunk fit their types. This is said of the
chunk and of the state before the call, with the receiver `r` that the session follows and
the bytes `pending` of the frame in progress. -/
structure LengthsFit (variant : UnmaskVariant) (data : Bytes) (ws : StreamWebSocket Z)
    (r : Receiver Z) (pending : Bytes) : Prop where
  /-- The rest of a frame that was begun. -/
  rest : ws.parser.wantsHead = false → RestFits variant ws.parser.remainingBytes data.length
  /-- The payload of a frame whose saved header the chunk completes. -/
  saved : ws.parser.spill ≠ [] → ∀ h, parseHeader (ws.parser.spill ++ data) = some h →
    r.judgeHeader h = none →
      RestFits variant h.length (ws.parser.spill.length + data.length - h.size)
  /-- The payloads of the frames that begin in the chunk. -/
  begins : ∀ n, r.Begins pending data n → n < InPlace.unmaskLimit variant

/-- An open session reads a chunk that is not empty and not too long. -/
theorem prepare_admits (hreads : Reads ws.parser ws.session r pending) (hdata : data ≠ [])
    (hlength : data.length ≤ unsignedMax) :
    ¬(ws.prepare.session.closing = true ∨ data = [] ∨ unsignedMax < data.length) := by
  rintro (hclosing | hempty | hlong)
  · exact absurd (hreads.prepare.sessionOpen.1.symm.trans hclosing) (by decide)
  · exact hdata hempty
  · omega

/-- With nothing saved, the chunk is read by one call of the parser. -/
theorem exactIn_iff_of_spill (variant : UnmaskVariant) (hreads : Reads ws.parser ws.session r pending)
    (hspill : ws.parser.spill = []) (hdata : data ≠ []) (hlength : data.length ≤ unsignedMax) :
    ws.ExactIn variant data ↔ ws.LengthsFit variant data r pending := by
  have hprepared := hreads.prepare
  have hsome := prepare_admits hreads hdata hlength
  have hidle : ¬(ws.prepare.session.closing = true ∨ data = []) := fun h => hsome (h.imp_right .inl)
  have hnone : ¬ws.prepare.parser.spill ≠ [] := not_not.mpr hspill
  have hexact := hprepared.exact_iff [] variant hspill data (by simp)
  simp only [ExactIn, parserCalls, payloadParts, consumeRecorded, if_neg hsome, if_neg hidle,
    if_neg hlength.not_gt, if_neg hnone, List.forall_mem_singleton]
  rw [hexact]
  exact ⟨fun h => ⟨h.1, fun hne => absurd hspill hne, h.2⟩, fun h => ⟨h.rest, h.begins⟩⟩

/-- A call in two parts ends in the first, or is exact when its second part is. -/
theorem exactIn_of_spill (variant : UnmaskVariant) (hreads : Reads ws.parser ws.session r pending)
    (hspill : ws.parser.spill ≠ []) (hdata : data ≠ []) (hlength : data.length ≤ unsignedMax) :
    let taken := takenForHeader ws.parser.spill data
    let first := ws.prepare.feedParser (data.take taken)
    ∃ parts, (∀ n ∈ parts, n < InPlace.unmaskLimit variant) ∧
      (ws.ExactIn variant data ↔ (first.session.closing = false → taken < data.length →
        InPlace.CompletesWithin first.parser (data.drop taken).length ∧
          ∀ n ∈ (Eiows.consume (recordParts protocolHooks) (data.drop taken) first.parser
            (first.session, parts)).2.2, n < InPlace.unmaskLimit variant)) := by
  intro taken first
  have hlimits := InPlace.unmaskLimit_le variant
  have hprepared := hreads.prepare
  have hsome := prepare_admits hreads hdata hlength
  have hidle : ¬(ws.prepare.session.closing = true ∨ data = []) := fun h => hsome (h.imp_right .inl)
  obtain ⟨hwants, -, hnone⟩ := hprepared.saved hspill
  have hincomplete := incompleteHeader_of_short (short_of_parseHeader hnone)
  have hfeed : first = _ := feedParser_recordParts (data.take taken) ws.prepare []
  have hrecord : ∀ n ∈ (Eiows.consume (recordParts protocolHooks) (data.take taken)
      ws.prepare.parser (ws.prepare.session, [])).2.2, n < InPlace.unmaskLimit variant := by
    intro n hn
    rw [Eiows.consume, if_pos hwants] at hn
    rcases parseNext_header_parts protocolHooks (savedHeader_length hspill hincomplete hdata).1
      ws.prepare.parser (ws.prepare.session, []) n hn with hold | hzero
    · cases hold
    · omega
  have hcopied : min data.length (spilledHeaderLength ws.prepare.parser.spill data -
    ws.prepare.parser.spill.length) = taken := rfl
  have hsaved : ws.prepare.parser.spill ≠ [] := hspill
  have hwithin : InPlace.CompletesWithin ws.prepare.parser (data.take taken).length :=
    fun hno => absurd (hwants.symm.trans hno) (by decide)
  simp only [ExactIn, parserCalls, payloadParts, consumeRecorded, if_neg hsome, if_neg hidle,
    if_neg hlength.not_gt, if_pos hsaved, hcopied, feedParser_recordParts _ ws.prepare [], hfeed]
  generalize Eiows.consume (recordParts protocolHooks) (data.take taken) ws.prepare.parser
    (ws.prepare.session, []) = recorded at hrecord ⊢
  refine ⟨recorded.2.2, hrecord, ?_⟩
  by_cases hgoes : (!recorded.2.1.closing) = true ∧ taken < data.length
  · have hopen : recorded.2.1.closing = false := by simpa using hgoes.1
    simp only [if_pos hgoes, List.forall_mem_cons, List.not_mem_nil, false_imp_iff, implies_true,
      and_true, hwithin, true_and]
    simp only [hopen, hgoes.2, true_imp_iff]
  · have hends : recorded.2.1.closing = false → ¬taken < data.length := by simpa using hgoes
    simp only [if_neg hgoes, List.forall_mem_cons, List.not_mem_nil, false_imp_iff, implies_true,
      and_true, hwithin, true_and]
    exact ⟨fun _ hopen hrest => absurd hrest (hends hopen), fun _ => hrecord⟩

/-- With a saved header, the chunk is read by a second call once the header is complete. -/
theorem exactIn_iff_of_saved (variant : UnmaskVariant) (hreads : Reads ws.parser ws.session r pending)
    (hspill : ws.parser.spill ≠ []) (hdata : data ≠ []) (hlength : data.length ≤ unsignedMax) :
    ws.ExactIn variant data ↔ ws.LengthsFit variant data r pending := by
  obtain ⟨hwants, rfl, hnone⟩ := hreads.saved hspill
  have hincomplete := incompleteHeader_of_short (short_of_parseHeader hnone)
  obtain ⟨parts, hparts, hexact⟩ := exactIn_of_spill variant hreads hspill hdata hlength
  obtain ⟨hle, hcomplete⟩ := savedHeader_length hspill hincomplete hdata
  have hlimits := InPlace.unmaskLimit_le variant
  have hno : ∀ available, ws.parser.wantsHead = false →
      RestFits variant ws.parser.remainingBytes available :=
    fun available hno => absurd (hwants.symm.trans hno) (by decide)
  have htaken : takenForHeader ws.parser.spill data ≤ data.length := min_le_left _ _
  rw [hexact]
  generalize takenForHeader ws.parser.spill data = taken at hle hcomplete htaken ⊢
  by_cases hrest : taken < data.length
  · obtain ⟨h, hparse, hsize⟩ := exists_parseHeader (hcomplete hrest)
    have hsplit : data.take taken ++ data.drop taken = data := List.take_append_drop taken data
    have hparse' : parseHeader (ws.parser.spill ++ data) = some h := by
      rw [← hsplit, ← List.append_assoc]
      exact parseHeader_append _ hparse
    have havailable : ws.parser.spill.length + data.length - h.size = (data.drop taken).length := by
      rw [hsize, List.length_append, List.length_take, List.length_drop]
      omega
    have hfit : ws.LengthsFit variant data r ws.parser.spill ↔
        (r.judgeHeader h = none → RestFits variant h.length (data.drop taken).length) ∧
          ∀ n, r.Begins ws.parser.spill data n → n < InPlace.unmaskLimit variant := by
      constructor
      · intro hfits
        exact ⟨fun hok => havailable ▸ hfits.saved hspill h hparse' hok, hfits.begins⟩
      · rintro ⟨hsaved, hbegins⟩
        refine ⟨hno _, fun _ h' hparse'' hok => ?_, hbegins⟩
        cases hparse'.symm.trans hparse''
        rw [havailable]
        exact hsaved hok
    have hread := hreads.prepare.header_read variant (data.drop taken) hspill hparse hsize
    rw [hsplit] at hread
    rw [hfit]
    rcases hread with ⟨hclosed, hempty, hbegins⟩ | ⟨r', pending', hreads', hspill', hsaved, hbegins⟩
    · refine iff_of_true (fun hopen => absurd (hclosed.symm.trans hopen) (by decide))
        ⟨fun hok => ?_, fun n hn => absurd hn (hbegins n)⟩
      rw [hempty hok]
      exact RestFits.zero_left variant _
    · have hopen : (ws.prepare.feedParser (data.take taken)).session.closing = false :=
        hreads'.sessionOpen.1
      have hsecond := hreads'.exact_iff parts variant hspill' (data.drop taken) hparts
      rw [hsaved] at hsecond
      simp only [← hbegins] at hsecond
      simp only [hopen, hrest, true_imp_iff]
      exact hsecond
  · obtain rfl : taken = data.length := by omega
    rw [List.take_length] at hle
    refine ⟨fun _ => ⟨hno _, fun _ h hparse _ => ?_, fun n hn => ?_⟩,
      fun _ _ hlt => absurd hlt hrest⟩
    · rw [(Reads.header_only (r := r) (n := 0) hspill hle).1 h hparse]
      exact RestFits.of_short variant h.length (by decide)
    · have hzero := (Reads.header_only hspill hle).2 hn
      omega

/-- Without vector loops the lengths fit unless a frame that was begun, or whose header was
saved, is completed while `2 ^ 31` bytes of its payload are missing. -/
theorem lengthsFit_scalar_iff (hreads : Reads ws.parser ws.session r pending)
    (hlength : data.length ≤ unsignedMax) : ws.LengthsFit .scalar data r pending ↔
      (ws.parser.wantsHead = false → ws.parser.remainingBytes ≤ data.length →
        ws.parser.remainingBytes < 2 ^ 31) ∧
      (ws.parser.spill ≠ [] → ∀ h, parseHeader (ws.parser.spill ++ data) = some h →
        r.judgeHeader h = none → h.size + h.length ≤ ws.parser.spill.length + data.length →
          h.length < 2 ^ 31) := by
  have hlimit : InPlace.unmaskLimit .scalar = 2 ^ 32 := rfl
  unfold unsignedMax at hlength
  constructor
  · intro hfits
    refine ⟨fun hwants => (hfits.rest hwants).1, fun hspill h hparse hok hwhole => ?_⟩
    exact (hfits.saved hspill h hparse hok).1 (by omega)
  · rintro ⟨hrest, hsaved⟩
    refine ⟨fun hwants => ⟨hrest hwants, fun hlt => by omega⟩, fun hspill h hparse hok => ?_,
      fun n hn => ?_⟩
    · obtain ⟨-, -, hnone⟩ := hreads.saved hspill
      have hheader := parseHeader_size_le hparse
      have hbehind := length_lt_of_parseHeader hnone hparse
      rw [List.length_append] at hheader
      exact ⟨fun hle => hsaved hspill h hparse hok (by omega), fun hlt => by omega⟩
    · have hle := hreads.begins_le hn
      omega

theorem exactIn_of_idle (variant : UnmaskVariant)
    (hidle : ws.session.closing = true ∨ data = [] ∨ unsignedMax < data.length) :
    ws.ExactIn variant data := by
  have hprepared : ws.prepare.session.closing = true ∨ data = [] ∨ unsignedMax < data.length := hidle
  simp only [ExactIn, parserCalls, payloadParts, consumeRecorded, if_pos hprepared]
  refine ⟨by simp, ?_⟩
  split_ifs with hnothing hlong hspill
  · simp
  · simp
  · exact absurd (hidle.imp_right fun h => h.resolve_right hlong) hnothing
  · exact absurd (hidle.imp_right fun h => h.resolve_right hlong) hnothing
  · exact absurd (hidle.imp_right fun h => h.resolve_right hlong) hnothing

/-- The lengths in a chunk of less than `2 ^ 31` bytes fit. -/
theorem lengthsFit_of_short (variant : UnmaskVariant) (hreads : Reads ws.parser ws.session r pending)
    (hdata : data.length < 2 ^ 31) : ws.LengthsFit variant data r pending := by
  have hlimits := InPlace.unmaskLimit_le variant
  constructor
  · intro _
    exact RestFits.of_short variant _ hdata
  · intro hspill h hparse _
    obtain ⟨-, -, hnone⟩ := hreads.saved hspill
    have hbehind := length_lt_of_parseHeader hnone hparse
    apply RestFits.of_short
    omega
  · intro n hn
    have hle := hreads.begins_le hn
    omega

theorem Tracks.lengthsFit (h : ws.Tracks (r, pending)) (variant : UnmaskVariant)
    (hopen : ws.session.closing = false) (hdata : data.length < 2 ^ 31) :
    ws.LengthsFit variant data r pending := by
  rcases h with hended | hreads
  · exact absurd (hended.session.symm.trans hopen) (by decide)
  · exact lengthsFit_of_short variant hreads hdata

/-- All arithmetic of a call is exact if and only if the lengths in its chunk fit. -/
theorem Tracks.exactIn_iff (h : ws.Tracks (r, pending)) (variant : UnmaskVariant) (data : Bytes) :
    ws.ExactIn variant data ↔ (ws.session.closing = false → data.length ≤ unsignedMax →
      ws.LengthsFit variant data r pending) := by
  rcases h with hended | hreads
  · exact iff_of_true (exactIn_of_idle variant (.inl hended.session))
      fun hno => absurd (hended.session.symm.trans hno) (by decide)
  · by_cases hempty : data = []
    · subst hempty
      exact iff_of_true (exactIn_of_idle variant (.inr (.inl rfl)))
        fun _ _ => lengthsFit_of_short variant hreads (by decide)
    · by_cases hlong : unsignedMax < data.length
      · exact iff_of_true (exactIn_of_idle variant (.inr (.inr hlong)))
          fun _ hlength => absurd hlength hlong.not_ge
      · have hlength : data.length ≤ unsignedMax := Nat.le_of_not_lt hlong
        simp only [hreads.sessionOpen.1, hlength, true_imp_iff]
        by_cases hspill : ws.parser.spill = []
        · exact exactIn_iff_of_spill variant hreads hspill hempty hlength
        · exact exactIn_iff_of_saved variant hreads hspill hempty hlength

end StreamWebSocket

end Eiows
