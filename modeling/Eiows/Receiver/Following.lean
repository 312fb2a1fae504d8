import Eiows.Receiver.Representation

/-!
# Sessions follow receivers

A chunk whose lengths do not fit the arithmetic of the parser may leave a payload masked.
The session still follows a receiver behind it, one that was given the payload as it is.
So every session that calls lead to follows a receiver, however long the chunks were.
-/

namespace Eiows

variable {Z : Zlib} {w : WebSocketState} {s : Session Z} {r : Receiver Z} {pending : Bytes}
  {ws : StreamWebSocket Z}

/-- A chunk of any length leaves the parser following a receiver. -/
theorem Reads.follows (hreads : Reads w s r pending) (src : Bytes) :
    ∃ r' pending', (consume protocolHooks src w s).2.Ended r' ∨
      Reads (consume protocolHooks src w s).1 (consume protocolHooks src w s).2 r' pending' := by
  cases hreads with
  | header hwants hspill hparse hw hs hr =>
    have hparses := parseNext_parses (w.spill ++ src) hwants
      (fun hempty => (List.append_eq_nil_iff.mp hempty).1) hw hs hr
    rw [consume, if_pos hwants]
    exact ⟨_, _, hparses.state⟩
  | payload h hwants hspill hparse hok part hrest hproper hremaining hmask hw hs hr =>
    rw [consume, if_neg (by simp [hwants]), hspill, List.nil_append]
    by_cases hlast : w.remainingBytes ≤ src.length
    · rcases consumeContinuation_delivers hparse hproper hremaining hspill hw hs hr hok hlast rfl with
        ⟨w', s', hconsumed, hended, -⟩ | ⟨w', s', hconsumed, hdelivered⟩
      · rw [hconsumed]
        exact ⟨_, [], .inl hended⟩
      · have hparses := parseNext_parses (src.drop w.remainingBytes) hdelivered.wantsHead
          (fun _ => hdelivered.spill) hdelivered.parser hdelivered.session hdelivered.wellFormed
        rw [hconsumed]
        exact ⟨_, _, hparses.state⟩
    · have hpart : src.length < h.length - part.length := by omega
      obtain ⟨w', s', hconsumed, -, hreads⟩ := consumeContinuation_part hparse hrest hremaining
        hmask hspill hwants hw hs hr hok hpart
      rw [hconsumed]
      exact ⟨_, _, .inr hreads⟩

namespace StreamWebSocket

theorem feedParser_follows (hreads : Reads ws.parser ws.session r pending) (data : Bytes) :
    ∃ st, (ws.feedParser data).Tracks st := by
  obtain ⟨r', pending', hfollows⟩ := hreads.follows data
  exact ⟨(r', pending'), hfollows⟩

theorem consume_follows {st : Receiver Z × Bytes} (h : ws.Tracks st) (data : Bytes) :
    ∃ st', (ws.consume data).Tracks st' := by
  rcases h with hended | hreads
  · have hidle : ws.consume data = ws.prepare := if_pos (.inl hended.session)
    rw [hidle]
    exact ⟨st, .inl ⟨hended.session, hended.receiver, hended.closeSent⟩⟩
  · have hprepared := hreads.prepare
    unfold consume
    simp only
    split_ifs with hidle hlong hspill hrest
    · exact ⟨st, .inr hprepared⟩
    · let ended : Receiver Z := { st.1 with
        closeSent := (ws.prepare.session.failWith 1009).closeSent
        closing := true }
      exact ⟨(ended, []), .inl ⟨Session.failWith_closing 1009, rfl, rfl⟩⟩
    · obtain ⟨first, hfirst⟩ := feedParser_follows hprepared (data.take (min data.length
        (spilledHeaderLength ws.prepare.parser.spill data - ws.prepare.parser.spill.length)))
      rcases hfirst with hended | hreads'
      · rw [hended.session] at hrest
        exact absurd hrest.1 (by decide)
      · exact feedParser_follows hreads' _
    · exact feedParser_follows hprepared _
    · exact feedParser_follows hprepared _

/-- Every session that calls lead to follows a receiver, however long the chunks were. -/
theorem invokeAll_follows {st : Receiver Z × Bytes} (h : ws.Tracks st)
    (calls : List (SessionCall Z)) : ∃ st', (ws.invokeAll calls).2.Tracks st' := by
  induction calls generalizing ws st with
  | nil => exact ⟨st, h⟩
  | cons call rest ih =>
    have hnext : ∃ st', (ws.invoke call).2.Tracks st' := by
      cases call with
      | consume data => exact consume_follows h data
      | createFrame data opCode compress => exact ⟨_, createFrame_tracks h data opCode compress⟩
      | createCloseFrame code message => exact ⟨_, h.invoke trivial⟩
      | contextUsed context => exact ⟨_, h.contextUsed context⟩
    obtain ⟨st', hnext⟩ := hnext
    exact ih hnext

end StreamWebSocket

end Eiows
