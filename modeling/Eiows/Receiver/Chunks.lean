import Eiows.Receiver.Parsing
import Eiows.Streaming.Decoder

/-!
# Feeding a session in chunks

`StreamWebSocket::consume` completes a saved header before it reads the rest of
a chunk. Over whole runs the session follows the receiver that drains the
concatenated input, so the cutting of the input into chunks does not matter.
-/

namespace Eiows

variable {Z : Zlib}

/-- A call of `consume` together with the events it leaves. -/
def StreamWebSocket.step (ws : StreamWebSocket Z) (chunk : Bytes) :
    StreamWebSocket Z × List Event :=
  (ws.consume chunk, (ws.consume chunk).events)

/-- Successive calls of `consume`, with the events of all of them. -/
def StreamWebSocket.consumeAll (ws : StreamWebSocket Z) (chunks : List Bytes) :
    StreamWebSocket Z × List Event :=
  Streaming.runChunks StreamWebSocket.step ws chunks

/-- The receiver of a session with the given negotiated options. -/
def Receiver.create (negotiatedOptions maxPayload : ℕ)
    (compressionContext : Option (CompressionContext Z)) : Receiver Z where
  maxPayload := maxPayload
  options := negotiatedOptions
  message := none
  data := []
  compression :=
    if hasOption negotiatedOptions PERMESSAGE_DEFLATE then .enabled else .disabled
  inflater :=
    if hasOption negotiatedOptions PERMESSAGE_DEFLATE then
      if hasOption negotiatedOptions CLIENT_NO_CONTEXT_TAKEOVER then
        some (compressionContext.getD {}).inflationStream
      else some none
    else if hasOption negotiatedOptions CLIENT_NO_CONTEXT_TAKEOVER then
      compressionContext.map (·.inflationStream)
    else none
  closeSent := false
  closing := false

/-- The session follows a receiver with unread bytes. -/
def StreamWebSocket.Tracks (ws : StreamWebSocket Z) (st : Receiver Z × Bytes) : Prop :=
  ws.session.Ended st.1 ∨ Reads ws.parser ws.session st.1 st.2

/-- Releasing the events and resetting the failure code is not observed. -/
theorem Reads.prepare {ws : StreamWebSocket Z} {r : Receiver Z} {pending : Bytes}
    (h : Reads ws.parser ws.session r pending) :
    Reads ws.prepare.parser ws.prepare.session r pending := by
  cases h with
  | header hwants hspill hparse hw hs hr =>
    exact .header hwants hspill hparse hw { hs with failureCode := rfl } hr
  | payload h hwants hspill hparse hok part hrest hproper hremaining hmask hw hs hr =>
    exact .payload h hwants hspill hparse hok part hrest hproper hremaining hmask hw
      { hs with failureCode := rfl } hr

theorem Reads.sessionOpen {w : WebSocketState} {s : Session Z} {r : Receiver Z} {pending : Bytes}
    (h : Reads w s r pending) : s.closing = false ∧ r.closing = false := by
  cases h with
  | header _ _ _ _ hs _ => exact ⟨hs.sessionOpen, hs.receiverOpen⟩
  | payload _ _ _ _ _ _ _ _ _ _ _ hs _ => exact ⟨hs.sessionOpen, hs.receiverOpen⟩

/-- Two calls of the parser on the parts of a chunk read the chunk. The second
call is left out when the first has ended the session or read everything. -/
theorem Parses.split {ws : StreamWebSocket Z} {r : Receiver Z} {pending : Bytes}
    (first second : Bytes) (hreads : Reads ws.parser ws.session r pending) (hfirst : first.length < 2 ^ 31)
    (hsecond : second.length < 2 ^ 31) :
    let ws' := if (ws.feedParser first).session.closing = false ∧ second ≠ [] then
        (ws.feedParser first).feedParser second
      else ws.feedParser first
    Parses ws.session.events (ws'.parser, ws'.session)
      ((Receiver.decoder Z).drain r (pending ++ (first ++ second))) := by
  have hparses : Parses ws.session.events
      ((ws.feedParser first).parser, (ws.feedParser first).session) _ :=
    consume_parses hreads hfirst
  rw [← List.append_assoc, (Receiver.decoder Z).drain_append]
  rcases hparses.state with hended | hnext
  · rw [if_neg (fun h => Bool.false_ne_true (h.1.symm.trans hended.session)), Receiver.drain_of_closing hended.receiver]
    exact ⟨by simpa using hparses.events, .inl hended⟩
  · by_cases hempty : second = []
    · rw [if_neg (by simp [hempty]), hempty, List.append_nil,
        (Receiver.decoder Z).drain_of_next_none ((Receiver.decoder Z).next_drain _ _)]
      exact ⟨by simpa using hparses.events, .inr hnext⟩
    · have hrest : Parses _ (_, _) _ := consume_parses hnext hsecond
      rw [if_pos ⟨hnext.sessionOpen.1, hempty⟩]
      exact ⟨hrest.events.trans (by rw [hparses.events, List.append_assoc]), hrest.state⟩

/-- The unread bytes hold no complete frame. -/
theorem Reads.settled {w : WebSocketState} {s : Session Z} {r : Receiver Z} {pending : Bytes}
    (h : Reads w s r pending) : (Receiver.decoder Z).next r pending = none := by
  cases h with
  | header _ _ hparse _ _ _ => exact Receiver.next_of_incomplete hparse
  | payload h _ _ hparse hok part hrest hproper _ _ _ _ _ =>
    have hheader := parseHeader_size_le hparse
    rw [hrest, List.length_drop] at hproper
    exact Receiver.next_of_part hparse hok (by omega)

/-- On a non-empty chunk an open session calls the parser, twice where a saved
header takes only a part of the chunk. -/
theorem StreamWebSocket.consume_parses {ws : StreamWebSocket Z} {r : Receiver Z}
    {pending chunk : Bytes} (hreads : Reads ws.parser ws.session r pending) (hne : chunk ≠ [])
    (hchunk : chunk.length < 2 ^ 31) :
    Parses [] ((ws.consume chunk).parser, (ws.consume chunk).session)
      ((Receiver.decoder Z).drain r (pending ++ chunk)) := by
  have hprepared := hreads.prepare
  have hgoes : ¬(ws.prepare.session.closing = true ∨ chunk = []) := by
    simp [hprepared.sessionOpen.1, hne]
  have hsmall : ¬unsignedMax < chunk.length := by
    unfold unsignedMax
    omega
  have hwhole : Parses [] _ _ := Eiows.consume_parses hprepared hchunk
  unfold StreamWebSocket.consume
  simp only
  rw [if_neg hgoes, if_neg hsmall]
  by_cases hspill : ws.prepare.parser.spill ≠ []
  · rw [if_pos hspill]
    generalize min chunk.length
      (spilledHeaderLength ws.prepare.parser.spill chunk - ws.prepare.parser.spill.length) = copied
    have hsplit := Parses.split (chunk.take copied) (chunk.drop copied) hprepared
      (by rw [List.length_take]; omega) (by rw [List.length_drop]; omega)
    have hcondition : ((!(ws.prepare.feedParser (chunk.take copied)).session.closing) = true ∧
          copied < chunk.length) ↔
        (ws.prepare.feedParser (chunk.take copied)).session.closing = false ∧
          chunk.drop copied ≠ [] := by
      simp
    rw [List.take_append_drop] at hsplit
    simp only [hcondition]
    exact hsplit
  · rw [if_neg hspill]
    exact hwhole

/-- Every call of `consume` carries the session on as its receiver reads. -/
theorem StreamWebSocket.step_tracks (ws : StreamWebSocket Z) (st : Receiver Z × Bytes)
    (chunk : Bytes) (hchunk : chunk.length < 2 ^ 31) (h : ws.Tracks st) :
    (ws.step chunk).1.Tracks ((Receiver.decoder Z).feed st chunk).1 ∧
      (ws.step chunk).2 = ((Receiver.decoder Z).feed st chunk).2 := by
  obtain ⟨r, pending⟩ := st
  simp only [Streaming.Decoder.feed, StreamWebSocket.step]
  rcases h with hended | hreads
  · have hidle : ws.consume chunk = ws.prepare := by
      unfold StreamWebSocket.consume
      exact if_pos (.inl hended.session)
    rw [Receiver.drain_of_closing hended.receiver, hidle]
    exact ⟨.inl ⟨hended.session, hended.receiver, hended.closeSent⟩, rfl⟩
  · by_cases hempty : chunk = []
    · have hidle : ws.consume chunk = ws.prepare := by
        unfold StreamWebSocket.consume
        exact if_pos (.inr hempty)
      rw [hidle, hempty, List.append_nil, (Receiver.decoder Z).drain_of_next_none hreads.settled]
      exact ⟨.inr hreads.prepare, rfl⟩
    · have hparses := StreamWebSocket.consume_parses hreads hempty hchunk
      exact ⟨hparses.state, hparses.events⟩

/-- Over a run the session follows the receiver on the concatenated input. -/
theorem StreamWebSocket.consumeAll_tracks {ws : StreamWebSocket Z} {st : Receiver Z × Bytes}
    (h : ws.Tracks st) (hsettled : (Receiver.decoder Z).Settled st) {chunks : List Bytes}
    (hchunks : ∀ chunk ∈ chunks, chunk.length < 2 ^ 31) :
    (ws.consumeAll chunks).1.Tracks ((Receiver.decoder Z).feed st chunks.flatten).1 ∧
      (ws.consumeAll chunks).2 = ((Receiver.decoder Z).feed st chunks.flatten).2 := by
  rw [← (Receiver.decoder Z).feedAll_eq_feed_flatten hsettled]
  exact Streaming.runChunks_simulates (Receiver.decoder Z) StreamWebSocket.step_tracks h hchunks

/-- A followed receiver has the closing state of its session. -/
theorem StreamWebSocket.Tracks.closing {ws : StreamWebSocket Z} {st : Receiver Z × Bytes}
    (h : ws.Tracks st) :
    ws.session.closing = st.1.closing ∧ ws.session.closeSent = st.1.closeSent := by
  rcases h with hended | hreads
  · exact ⟨hended.session.trans hended.receiver.symm, hended.closeSent⟩
  · refine ⟨hreads.sessionOpen.1.trans hreads.sessionOpen.2.symm, ?_⟩
    cases hreads with
    | header _ _ _ _ hs _ => exact hs.closeSent
    | payload _ _ _ _ _ _ _ _ _ _ _ hs _ => exact hs.closeSent

/-- A fresh session follows a fresh receiver. -/
theorem StreamWebSocket.create_tracks (negotiatedOptions serverMaxWindowBits maxPayload : ℕ)
    (compressionContext : Option (CompressionContext Z)) :
    (StreamWebSocket.create negotiatedOptions serverMaxWindowBits maxPayload
      compressionContext).Tracks
        (Receiver.create negotiatedOptions maxPayload compressionContext, []) := by
  have hrests : (Session.create negotiatedOptions serverMaxWindowBits maxPayload
      compressionContext).Rests
        (Receiver.create negotiatedOptions maxPayload compressionContext) := by
    have hinflater : (Session.create negotiatedOptions serverMaxWindowBits maxPayload
        compressionContext).inflater =
          (Receiver.create negotiatedOptions maxPayload compressionContext).inflater := by
      cases hdeflate : hasOption negotiatedOptions PERMESSAGE_DEFLATE <;>
        cases htakeover : hasOption negotiatedOptions CLIENT_NO_CONTEXT_TAKEOVER <;>
        simp [Session.create, Session.inflater, Receiver.create, hdeflate, htakeover]
    refine ⟨⟨⟨?_, ?_, hinflater, ?_, ?_, ?_, rfl⟩, ?_, ?_⟩, fun _ => ?_⟩
    all_goals
      simp only [Session.create, Receiver.create]
      split_ifs <;> rfl
  exact .inr (.header rfl rfl (by simp [parseHeader, shortMessageHeader]) ⟨rfl, rfl, by
    simp [Receiver.create]⟩ hrests (by simp [Receiver.WellFormed, Receiver.create]))

/-- A fresh session fed with a byte string in any chunks leaves the events and
the closing state of the receiver that drains it. -/
theorem StreamWebSocket.consumeAll_create (negotiatedOptions serverMaxWindowBits maxPayload : ℕ)
    (compressionContext : Option (CompressionContext Z)) (chunks : List Bytes)
    (hchunks : ∀ chunk ∈ chunks, chunk.length < 2 ^ 31) :
    let run := (StreamWebSocket.create negotiatedOptions serverMaxWindowBits maxPayload
      compressionContext).consumeAll chunks
    let drained := (Receiver.decoder Z).drain
      (Receiver.create negotiatedOptions maxPayload compressionContext) chunks.flatten
    run.1.Tracks (drained.1, drained.2.1) ∧ run.2 = drained.2.2 := by
  have hsettled : (Receiver.decoder Z).Settled
      (Receiver.create negotiatedOptions maxPayload compressionContext, []) :=
    Receiver.next_of_incomplete (by simp [parseHeader, shortMessageHeader])
  exact StreamWebSocket.consumeAll_tracks (StreamWebSocket.create_tracks _ _ _ _) hsettled hchunks

/-- **Chunking invariance.** The events and the closing state that a byte string
leaves in a fresh session do not depend on how it is cut into chunks. -/
theorem consume_chunking_invariant (negotiatedOptions serverMaxWindowBits maxPayload : ℕ)
    (compressionContext : Option (CompressionContext Z)) (input : Bytes)
    (chunks chunks' : List Bytes) (hinput : chunks.flatten = input)
    (hinput' : chunks'.flatten = input)
    (hchunks : ∀ chunk ∈ chunks, chunk ≠ [] ∧ chunk.length < 2 ^ 31)
    (hchunks' : ∀ chunk ∈ chunks', chunk ≠ [] ∧ chunk.length < 2 ^ 31) :
    let fresh := StreamWebSocket.create negotiatedOptions serverMaxWindowBits maxPayload
      compressionContext
    (fresh.consumeAll chunks).2 = (fresh.consumeAll chunks').2 ∧
      (fresh.consumeAll chunks).1.session.closing =
        (fresh.consumeAll chunks').1.session.closing ∧
      (fresh.consumeAll chunks).1.session.closeSent =
        (fresh.consumeAll chunks').1.session.closeSent := by
  intro fresh
  obtain ⟨htracks, hevents⟩ := StreamWebSocket.consumeAll_create negotiatedOptions
    serverMaxWindowBits maxPayload compressionContext chunks (fun chunk h => (hchunks chunk h).2)
  obtain ⟨htracks', hevents'⟩ := StreamWebSocket.consumeAll_create negotiatedOptions
    serverMaxWindowBits maxPayload compressionContext chunks' (fun chunk h => (hchunks' chunk h).2)
  rw [hinput] at htracks hevents
  rw [hinput'] at htracks' hevents'
  exact ⟨hevents.trans hevents'.symm, htracks.closing.1.trans htracks'.closing.1.symm,
    htracks.closing.2.trans htracks'.closing.2.symm⟩

/-- A text frame of one letter, cut inside its header and inside its mask. -/
theorem consume_chunking_invariant_letter :
    let fresh := StreamWebSocket.create (Z := Zlib.sample) 0 15 0 none
    let chunks : List Bytes := [[0x81], [0x81, 0x01, 0x02], [0x03, 0x04, 0x60]]
    let chunks' : List Bytes := [[0x81, 0x81, 0x01, 0x02, 0x03, 0x04, 0x60]]
    (fresh.consumeAll chunks).2 = (fresh.consumeAll chunks').2 ∧
      (fresh.consumeAll chunks).1.session.closing =
        (fresh.consumeAll chunks').1.session.closing ∧
      (fresh.consumeAll chunks).1.session.closeSent =
        (fresh.consumeAll chunks').1.session.closeSent :=
  consume_chunking_invariant 0 15 0 none [0x81, 0x81, 0x01, 0x02, 0x03, 0x04, 0x60] _ _ rfl rfl
    (by decide) (by decide)

end Eiows
