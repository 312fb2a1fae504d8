import Eiows.Transport.WriteSubmissions
import Eiows.Session.StreamWebSocket

/-!
# The encoders of outgoing messages

An uncompressed message is framed in one of four places: in the storage of a
write request, as a header in front of its payload, by the session, or by
JavaScript, which keeps the last header of each opcode. This file shows that all
of them put the same frame on the wire, and what a reader makes of its header.
-/

namespace Eiows

/-- `createFrameHeader.textCache` and `createFrameHeader.binaryCache`. -/
structure HeaderCache where
  length : ℤ := -1
  header : Bytes := []
  deriving DecidableEq

/-- Both caches; they are shared by all connections. -/
structure HeaderCaches where
  textCache : HeaderCache := {}
  binaryCache : HeaderCache := {}
  deriving DecidableEq

/-- The branch of `createFrameHeader` that encodes a header. -/
def encodeFrameHeader (payloadLength : ℕ) (opCode : OpCode) : Bytes :=
  let first := UInt8.ofNat (0x80 ||| opCode.value)
  if payloadLength < 126 then [first, UInt8.ofNat payloadLength]
  else if payloadLength ≤ 0xffff then first :: 126 :: bigEndianBytes 2 payloadLength
  else first :: 127 :: bigEndianBytes 8 payloadLength

/-- `createFrameHeader`. -/
def createFrameHeader (payloadLength : ℕ) (opCode : OpCode) (caches : HeaderCaches) :
    Bytes × HeaderCaches :=
  let cache := if opCode = .text then caches.textCache else caches.binaryCache
  if cache.length = payloadLength then (cache.header, caches)
  else
    let header := encodeFrameHeader payloadLength opCode
    let cache := { length := payloadLength, header := header }
    (header,
      if opCode = .text then { caches with textCache := cache }
      else { caches with binaryCache := cache })

/-- A message that `send` accepts: a string, encoded as UTF-8, or binary data. -/
structure SendMessage where
  opCode : OpCode
  payload : Bytes
  application : opCode = .text ∨ opCode = .binary
  utf8 : opCode = .text → isValidUtf8 payload = true
  /-- JavaScript's lengths are safe integers. -/
  safe : payload.length < 2 ^ 53

namespace SendMessage

/-- What `send` writes to the socket on the fallback path, without compression. -/
def fallbackWrites (m : SendMessage) (caches : HeaderCaches) : List Bytes × HeaderCaches :=
  let (header, caches) := createFrameHeader m.payload.length m.opCode caches
  if m.payload.length = 0 then ([header], caches) else ([header, m.payload], caches)

/-- The caches after some messages. -/
def cachesAfter (earlier : List SendMessage) : HeaderCaches :=
  earlier.foldl (fun caches m => (m.fallbackWrites caches).2) {}

/-- The submissions of the native path, without compression. -/
inductive Submits (m : SendMessage) : WriteSubmission → Prop
  | text (h : m.opCode = .text) : Submits m (.text m.payload .text)
  | binary (h : m.opCode = .binary) (input : WriteInput) (hinput : input.content = m.payload) :
      Submits m (.message input .binary)

end SendMessage

/-- The size of an unmasked header with a length marker. -/
def unmaskedHeaderLength (marker : ℕ) : ℕ := headerLengthOf marker - 4

/-- An unmasked frame that is a whole message: what a reader finds in its header,
and that no other header announces the length in fewer bytes. -/
structure IsServerFrame (frame : Bytes) (opCode : OpCode) (payload : Bytes) : Prop where
  fin : isFin frame = true
  rsv1 : rsv1 frame = false
  rsv23 : rsv23 frame = false
  opCode : OpCode.ofNibble (getOpCode frame) = opCode
  masked : isMasked frame = false
  length : announcedLength frame = payload.length
  behind : frame.drop (unmaskedHeaderLength (payloadLength frame)) = payload
  minimal : ∀ other, announcedLength other = payload.length →
    unmaskedHeaderLength (payloadLength frame) ≤ unmaskedHeaderLength (payloadLength other)

/-- The caches hold headers of earlier lengths. -/
structure HeaderCaches.Valid (caches : HeaderCaches) : Prop where
  text : ∀ n : ℕ, caches.textCache.length = n → caches.textCache.header = frameHeader n .text
  binary : ∀ n : ℕ, caches.binaryCache.length = n →
    caches.binaryCache.header = frameHeader n .binary

theorem HeaderCaches.valid_init : ({} : HeaderCaches).Valid where
  text := by
    intro n h
    simp only at h
    omega
  binary := by
    intro n h
    simp only at h
    omega

theorem encodeFrameHeader_eq (payloadLength : ℕ) (opCode : OpCode) :
    encodeFrameHeader payloadLength opCode = frameHeader payloadLength opCode := by
  have hfirst : 0x80 ||| opCode.value = 0x80 + opCode.value := by
    cases opCode <;> rfl
  unfold encodeFrameHeader frameHeader
  rw [hfirst]

/-- A cache that is written for a length holds the header of that length. -/
private theorem header_of_length {payloadLength n : ℕ} (opCode : OpCode)
    (h : (payloadLength : ℤ) = n) :
    encodeFrameHeader payloadLength opCode = frameHeader n opCode := by
  rw [encodeFrameHeader_eq, Int.ofNat_inj.mp h]

/-- JavaScript's header is that of the native transport, whatever is cached. -/
theorem createFrameHeader_valid {caches : HeaderCaches} (h : caches.Valid) (payloadLength : ℕ)
    {opCode : OpCode} (hopCode : opCode = .text ∨ opCode = .binary) :
    (createFrameHeader payloadLength opCode caches).1 = frameHeader payloadLength opCode ∧
      (createFrameHeader payloadLength opCode caches).2.Valid := by
  unfold createFrameHeader
  rcases hopCode with rfl | rfl
  · by_cases hcached : caches.textCache.length = payloadLength
    · simp only [if_true, if_pos hcached]
      exact ⟨h.text _ hcached, h⟩
    · simp only [if_true, if_neg hcached]
      exact ⟨encodeFrameHeader_eq _ _, ⟨fun n hn => header_of_length .text hn, h.binary⟩⟩
  · have hne : OpCode.binary ≠ .text := by decide
    by_cases hcached : caches.binaryCache.length = payloadLength
    · simp only [if_neg hne, if_pos hcached]
      exact ⟨h.binary _ hcached, h⟩
    · simp only [if_neg hne, if_neg hcached]
      exact ⟨encodeFrameHeader_eq _ _, ⟨h.text, fun n hn => header_of_length .binary hn⟩⟩

/-- `formatMessageHeader` agrees for frames that are not compressed. -/
theorem formatMessageHeader_eq (opCode : OpCode) (reportedLength : ℕ) :
    formatMessageHeader opCode reportedLength false = frameHeader reportedLength opCode := by
  unfold formatMessageHeader frameHeader
  split_ifs <;> simp_all

theorem unmaskedHeaderLength_cases (marker : ℕ) :
    unmaskedHeaderLength marker =
      if marker < 126 then 2 else if marker = 126 then 4 else 10 := by
  unfold unmaskedHeaderLength headerLengthOf shortMessageHeader mediumMessageHeader
    longMessageHeader
  split_ifs <;> rfl

/-- A marker announces no length beyond what its bytes can hold. -/
theorem le_unmaskedHeaderLength (other : Bytes) :
    (if announcedLength other < 126 then 2 else if announcedLength other ≤ 0xffff then 4 else 10) ≤
      unmaskedHeaderLength (payloadLength other) := by
  rw [unmaskedHeaderLength_cases, announcedLength]
  have hmedium : readUint16BE other 2 ≤ 0xffff := by
    have hlt := bigEndian_lt ((other.drop 2).take 2)
    have hle : 256 ^ ((other.drop 2).take 2).length ≤ 256 ^ 2 := by
      apply Nat.pow_le_pow_right (by decide)
      rw [List.length_take]
      omega
    rw [readUint16BE]
    omega
  split_ifs <;> omega

namespace SendMessage

/-- The frame of a message. -/
def frame (m : SendMessage) : Bytes := frameHeader m.payload.length m.opCode ++ m.payload

theorem cachesAfter_valid (earlier : List SendMessage) : (cachesAfter earlier).Valid := by
  have hfold (caches : HeaderCaches) (h : caches.Valid) :
      (earlier.foldl (fun caches m => (m.fallbackWrites caches).2) caches).Valid := by
    induction earlier generalizing caches with
    | nil => exact h
    | cons m rest ih =>
      apply ih
      obtain ⟨-, hvalid⟩ := createFrameHeader_valid h m.payload.length m.application
      unfold fallbackWrites
      simp only
      split_ifs <;> exact hvalid
  exact hfold {} HeaderCaches.valid_init

/-- The fallback path writes the frame, after any earlier messages. -/
theorem fallbackWrites_flatten (m : SendMessage) (earlier : List SendMessage) :
    (m.fallbackWrites (cachesAfter earlier)).1.flatten = m.frame := by
  obtain ⟨hheader, -⟩ :=
    createFrameHeader_valid (cachesAfter_valid earlier) m.payload.length m.application
  unfold fallbackWrites frame
  simp only [hheader]
  split_ifs with hempty
  · rw [List.length_eq_zero_iff.mp hempty]
    simp
  · simp

/-- The session frames the message alike, where it frames it at all. -/
theorem createFrame_frame {Z : Zlib} (m : SendMessage) (ws : StreamWebSocket Z) (compress : Bool)
    (hopen : ws.isClosing = false)
    (hplain : compress = false ∨ ws.session.compressionStatus = .disabled) :
    ws.createFrame m.payload m.opCode compress = (some m.frame, ws) := by
  rw [StreamWebSocket.isClosing, Bool.or_eq_false_iff] at hopen
  have happlication : ¬(m.opCode ≠ .text ∧ m.opCode ≠ .binary) := by
    rintro ⟨htext, hbinary⟩
    exact m.application.elim htext hbinary
  have hvalid : ¬(m.opCode = .text ∧ (!isValidUtf8 m.payload) = true) := by
    rintro ⟨htext, hinvalid⟩
    rw [m.utf8 htext] at hinvalid
    cases hinvalid
  have huncompressed : ¬(compress = true ∧ ws.session.compressionStatus ≠ .disabled) := by
    rintro ⟨hcompress, henabled⟩
    rcases hplain with hplain | hplain
    · rw [hplain] at hcompress
      cases hcompress
    · exact henabled hplain
  unfold StreamWebSocket.createFrame
  rw [if_neg (by simp [hopen.1, hopen.2, happlication]), if_neg hvalid, if_neg huncompressed,
    formatFrame, formatMessage, formatMessageHeader_eq]
  rfl

/-- A submission of the message is to send its frame. -/
theorem Submits.content {m : SendMessage} {s : WriteSubmission} (h : m.Submits s) :
    s.content = m.frame := by
  cases h with
  | text h => rw [WriteSubmission.content, frame, h]
  | binary h input hinput => rw [WriteSubmission.content, frame, h, hinput]

end SendMessage

/-- The first byte of a message names its opcode and sets nothing but FIN. -/
theorem first_byte {opCode : OpCode} (hopCode : opCode = .text ∨ opCode = .binary) (rest : Bytes) :
    isFin (UInt8.ofNat (0x80 + opCode.value) :: rest) = true ∧
      rsv1 (UInt8.ofNat (0x80 + opCode.value) :: rest) = false ∧
      rsv23 (UInt8.ofNat (0x80 + opCode.value) :: rest) = false ∧
      OpCode.ofNibble (getOpCode (UInt8.ofNat (0x80 + opCode.value) :: rest)) = opCode := by
  have htext : OpCode.ofNibble (UInt8.ofNat (0x80 + OpCode.text.value) &&& 15).toNat = .text := by
    decide
  have hbinary :
      OpCode.ofNibble (UInt8.ofNat (0x80 + OpCode.binary.value) &&& 15).toNat = .binary := by
    decide
  rcases hopCode with rfl | rfl
  · exact ⟨(by decide : ((0x81 : UInt8) &&& 128 != 0) = true),
      (by decide : ((0x81 : UInt8) &&& 64 != 0) = false),
      (by decide : ((0x81 : UInt8) &&& 48 != 0) = false), htext⟩
  · exact ⟨(by decide : ((0x82 : UInt8) &&& 128 != 0) = true),
      (by decide : ((0x82 : UInt8) &&& 64 != 0) = false),
      (by decide : ((0x82 : UInt8) &&& 48 != 0) = false), hbinary⟩

/-- A short length is its own marker, and leaves the mask bit clear. -/
theorem short_marker : ∀ n < 126,
    (UInt8.ofNat n &&& 128 != 0) = false ∧ (UInt8.ofNat n &&& 127).toNat = n := by
  decide +kernel

/-- A frame header is unmasked and announces the length of the payload. -/
theorem frameHeader_reads (opCode : OpCode) {payload : Bytes} (hsafe : payload.length < 2 ^ 53) :
    isMasked (frameHeader payload.length opCode ++ payload) = false ∧
      announcedLength (frameHeader payload.length opCode ++ payload) = payload.length ∧
      unmaskedHeaderLength (payloadLength (frameHeader payload.length opCode ++ payload)) =
        (frameHeader payload.length opCode).length := by
  rw [StoredRequest.frameHeader_length, unmaskedHeaderLength_cases]
  unfold frameHeader
  by_cases hsmall : payload.length < 126
  · obtain ⟨hmask, hmarker⟩ := short_marker payload.length hsmall
    have hlength (rest : Bytes) : payloadLength
        (UInt8.ofNat (0x80 + opCode.value) :: UInt8.ofNat payload.length :: rest) =
        payload.length := hmarker
    simp only [if_pos hsmall, List.cons_append, announcedLength, hlength]
    exact ⟨hmask, trivial, trivial⟩
  · by_cases hmedium : payload.length ≤ 0xffff
    · have hlength (rest : Bytes) : payloadLength
          (UInt8.ofNat (0x80 + opCode.value) :: 126 :: rest) = 126 :=
        (by decide : ((126 : UInt8) &&& 127).toNat = 126)
      have hread : readUint16BE (UInt8.ofNat (0x80 + opCode.value) :: 126 ::
          (bigEndianBytes 2 payload.length ++ payload)) 2 = payload.length := by
        rw [readUint16BE, List.drop_succ_cons, List.drop_succ_cons, List.drop_zero,
          List.take_left' (bigEndianBytes_length 2 _)]
        exact bigEndian_bigEndianBytes (by omega)
      simp only [if_neg hsmall, if_pos hmedium, List.cons_append, announcedLength, hlength, hread]
      exact ⟨(by decide : ((126 : UInt8) &&& 128 != 0) = false), rfl, rfl⟩
    · have hlength (rest : Bytes) : payloadLength
          (UInt8.ofNat (0x80 + opCode.value) :: 127 :: rest) = 127 :=
        (by decide : ((127 : UInt8) &&& 127).toNat = 127)
      have hread : readUint64BE (UInt8.ofNat (0x80 + opCode.value) :: 127 ::
          (bigEndianBytes 8 payload.length ++ payload)) 2 = payload.length := by
        rw [readUint64BE, List.drop_succ_cons, List.drop_succ_cons, List.drop_zero,
          List.take_left' (bigEndianBytes_length 8 _)]
        exact bigEndian_bigEndianBytes (by omega)
      simp only [if_neg hsmall, if_neg hmedium, List.cons_append, announcedLength, hlength, hread]
      exact ⟨(by decide : ((127 : UInt8) &&& 128 != 0) = false), rfl, rfl⟩

namespace SendMessage

/-- What a reader finds in the frame. -/
theorem isServerFrame (m : SendMessage) : IsServerFrame m.frame m.opCode m.payload := by
  obtain ⟨rest, hrest⟩ : ∃ rest, m.frame = UInt8.ofNat (0x80 + m.opCode.value) :: rest := by
    unfold frame frameHeader
    split_ifs <;> exact ⟨_, rfl⟩
  obtain ⟨hfin, hrsv1, hrsv23, hopCode⟩ := first_byte m.application rest
  obtain ⟨hmasked, hlength, hheader⟩ := frameHeader_reads m.opCode m.safe
  rw [← hrest] at hfin hrsv1 hrsv23 hopCode
  refine ⟨hfin, hrsv1, hrsv23, hopCode, hmasked, hlength, ?_, ?_⟩
  · rw [frame, hheader]
    exact List.drop_left
  · intro other hother
    have hle := le_unmaskedHeaderLength other
    rw [hother] at hle
    rw [frame, hheader, StoredRequest.frameHeader_length]
    exact hle

/-- All encoders of a message put the same frame on the wire: the native transport,
however it joins the parts and however much is accepted at a time, the session, and
JavaScript after any earlier messages. The transport has sent a prefix of the frame
at any time, offers the rest, and can send all of it with either call. A reader
recovers opcode and payload from the shortest header there is. -/
theorem encoders_agree (m : SendMessage) :
    (∀ (shortCapacity : ℕ) (memory : { b : Bytes // b.length = INLINE_BYTES })
        (s : WriteSubmission), m.Submits s → ∀ rewrites : List StoredRequest.Rewrite,
        ∃ r, (((StoredRequest.build shortCapacity memory s).bind StoredRequest.prepare).bind
            (rewrites.foldlM (StoredRequest.rewrite shortCapacity))) = some r ∧
          r.Intact m.frame ∧
          ∀ steps data r', StoredRequest.transmit steps r = some (data, r') →
            r'.ExposedFrom m.frame data.length ∧
            ∃ rest, data ++ rest = m.frame ∧ r'.Sends .sslWrite rest ∧
              ∀ limit, 0 < limit → r'.Sends (.sendmsg limit) rest) ∧
      (∀ (Z : Zlib) (ws : StreamWebSocket Z) (compress : Bool), ws.isClosing = false →
        compress = false ∨ ws.session.compressionStatus = .disabled →
        ws.createFrame m.payload m.opCode compress = (some m.frame, ws)) ∧
      (∀ earlier, (m.fallbackWrites (cachesAfter earlier)).1.flatten = m.frame) ∧
      IsServerFrame m.frame m.opCode m.payload := by
  refine ⟨?_, ?_, m.fallbackWrites_flatten, m.isServerFrame⟩
  · intro shortCapacity memory s hs rewrites
    have hfits : s.content.length ≤ sizeMax := by
      have hsafe := m.safe
      rw [hs.content, frame, List.length_append, StoredRequest.frameHeader_length, sizeMax]
      split_ifs <;> omega
    obtain ⟨r, w, hchain, hprepared, hcontent⟩ :=
      StoredRequest.submission_prepared shortCapacity memory s hfits rewrites
    have hframe : w.content = m.frame := hcontent.trans hs.content
    refine ⟨r, hchain, by rw [← hframe]; exact hprepared.intact, ?_⟩
    intro steps data r' htransmit
    obtain ⟨⟨rest, hrest⟩, w', hexposes, hat, hcontent'⟩ :=
      hprepared.exposes.transmit hprepared.start steps htransmit
    rw [List.drop_zero] at hrest
    rw [Nat.zero_add] at hat
    have hbehind : w'.content.drop data.length = rest := by
      rw [hcontent', ← hrest, List.drop_left]
    rw [← hframe, ← hcontent']
    refine ⟨hexposes.exposedFrom hat, rest, by rw [hcontent', hrest], ?_, ?_⟩
    · rw [← hbehind]
      exact hexposes.sends hat .sslWrite fun h hat hleft => h.sslWrite_accepts hat hleft
    · intro limit hlimit
      rw [← hbehind]
      exact hexposes.sends hat (.sendmsg limit) fun h hat hleft =>
        h.sendmsg_accepts hat hleft hlimit
  · intro Z ws compress hopen hplain
    exact m.createFrame_frame ws compress hopen hplain

end SendMessage

end Eiows
