import OpenQSP.Server.Frames
import OpenQSP.Server.Numbering

/-!
# Serving what is stored

The stores check the types of what they are given, and the encoder checks the fields of what is
sent. An object that satisfies the rules of the encoder is served with exactly its content; one that
does not makes every answer that contains it raise, and `handle_frame` with it.
`ServerCore.send_message` checks the rules before it calls the store.

## Main definitions

* `StoredMessage.Fits`, `StoredBulletinHeader.Fits`, `StoredBulletin.Fits` — the rules of the
  encoder
* `Node.Serves`, `Node.Fails` — what `handle_frame` does with a frame

## Main results

* `Node.serves_iff` — an answer is served exactly when each of its objects can be encoded
* `serves_messages`, `serves_message`, `serves_headers`, `serves_bulletin`
* **`storedObjects_served`** — whatever was stored is served when it fits
-/

namespace OpenQSP

open Method Tables

/-! ### The rules of the encoder, on what is stored -/

/-- The encoder accepts the message. -/
structure StoredMessage.Fits (stored : StoredMessage) : Prop where
  createdAt : stored.createdAt ≠ 0
  author : ValidCallsign stored.author
  recipient : ValidCallsign stored.recipient
  body : ValidText minMessageBodyLength maxMessageBodyLength stored.body

/-- The encoder accepts the header. -/
structure StoredBulletinHeader.Fits (header : StoredBulletinHeader) : Prop where
  createdAt : header.createdAt ≠ 0
  author : ValidCallsign header.author
  title : ValidText minBulletinTitleLength maxBulletinTitleLength header.title

/-- The encoder accepts the bulletin. -/
structure StoredBulletin.Fits (bulletin : StoredBulletin) : Prop where
  createdAt : bulletin.createdAt ≠ 0
  author : ValidCallsign bulletin.author
  title : ValidText minBulletinTitleLength maxBulletinTitleLength bulletin.title
  body : ValidText minBulletinBodyLength maxBulletinBodyLength bulletin.body

section Rules

variable {t : Tables}

theorem validateStoredU32_eq_ok {value n : ℕ} {field : String} {allowZero : Bool}
    (h : validateStoredU32 value field allowZero = .ok n) :
    n = value ∧ (allowZero = false → 1 ≤ value) ∧ value ≤ maxU32 := by
  obtain ⟨_, hrange, h⟩ := Py.bind_eq_ok.mp h
  rw [raiseIf_eq_ok, not_not] at hrange
  refine ⟨(Except.ok.inj h).symm, fun hzero => ?_, hrange.2⟩
  rw [hzero] at hrange
  exact hrange.1

theorem storedMessage_createdAt {e : (Str × ℕ) × MessageRow} {stored : StoredMessage}
    (h : storedMessage e = .ok stored) : stored.createdAt ≤ maxU32 := by
  obtain ⟨sequence, -, h⟩ := Py.bind_eq_ok.mp h
  obtain ⟨createdAt, hcreated, h⟩ := Py.bind_eq_ok.mp h
  obtain ⟨rfl, -, hle⟩ := validateStoredU32_eq_ok hcreated
  split at h
  · cases h
  · rw [← Except.ok.inj h]
    exact hle

/-- A conversation number is a positive unsigned 32-bit value. -/
theorem conversationSequence_range {stored : StoredMessage} {number : ℕ}
    (h : conversationSequence stored t = .ok number) : 1 ≤ number ∧ number ≤ maxU32 := by
  simp only [conversationSequence, Py.bind_eq_ok, raiseIf_eq_ok] at h
  obtain ⟨_, -, _, -, _, hrange, h⟩ := h
  obtain rfl := Except.ok.inj h
  omega

theorem storedHeader_range {e : ℕ × BulletinRow} {header : StoredBulletinHeader}
    (h : storedHeader e = .ok header) :
    1 ≤ header.sequence ∧ header.sequence ≤ maxU32 ∧ header.createdAt ≤ maxU32 := by
  obtain ⟨sequence, hsequence, h⟩ := Py.bind_eq_ok.mp h
  obtain ⟨createdAt, hcreated, h⟩ := Py.bind_eq_ok.mp h
  obtain ⟨rfl, hpos, hmax⟩ := validateStoredU32_eq_ok hsequence
  obtain ⟨rfl, -, hle⟩ := validateStoredU32_eq_ok hcreated
  obtain rfl := Except.ok.inj h
  exact ⟨hpos rfl, hmax, hle⟩

theorem storedBulletin_range {e : ℕ × BulletinRow} {bulletin : StoredBulletin}
    (h : storedBulletin e = .ok bulletin) :
    1 ≤ bulletin.sequence ∧ bulletin.sequence ≤ maxU32 ∧ bulletin.createdAt ≤ maxU32 := by
  obtain ⟨header, hheader, h⟩ := Py.bind_eq_ok.mp h
  split at h
  · cases h
  · obtain rfl := Except.ok.inj h
    exact storedHeader_range hheader

theorem storedBulletin_sequence {e : ℕ × BulletinRow} {bulletin : StoredBulletin}
    (h : storedBulletin e = .ok bulletin) : bulletin.sequence = e.1 := by
  obtain ⟨header, hheader, h⟩ := Py.bind_eq_ok.mp h
  split at h
  · cases h
  · obtain rfl := Except.ok.inj h
    exact storedHeader_sequence hheader

theorem validU32_natCast {n : ℕ} : ValidU32 n ↔ n ≠ 0 ∧ n ≤ maxU32 := by
  rw [ValidU32, maxU32]
  omega

/-- A message of the tables is encoded under its number exactly when it fits. -/
theorem valid_toMessage {e : (Str × ℕ) × MessageRow} {stored : StoredMessage}
    (hstored : storedMessage e = .ok stored) {number : ℕ} (hpos : 1 ≤ number)
      (hle : number ≤ maxU32) :
    (stored.toMessage number).Valid ↔ stored.Fits := by
  obtain ⟨hmin, hmax, hsequence, -⟩ := storedMessage_eq_ok hstored
  have hcreated := storedMessage_createdAt hstored
  constructor
  · rintro ⟨-, -, hat, hauthor, hrecipient, hbody⟩
    exact ⟨(validU32_natCast.mp hat).1, hauthor, hrecipient, hbody⟩
  · rintro ⟨hat, hauthor, hrecipient, hbody⟩
    refine ⟨validU32_natCast.mpr ⟨?_, ?_⟩, validU32_natCast.mpr ⟨Nat.pos_iff_ne_zero.mp hpos, hle⟩,
      validU32_natCast.mpr ⟨hat, hcreated⟩, hauthor, hrecipient, hbody⟩
    · rw [hsequence]
      exact Nat.pos_iff_ne_zero.mp hmin
    · rw [hsequence]
      exact hmax

/-- A header of the tables is encoded exactly when it fits. -/
theorem encodable_lists {e : ℕ × BulletinRow} {header : BulletinHeader}
    {stored : StoredBulletinHeader}
    (hstored : storedHeader e = .ok stored) (hlists : Lists e header) :
    Encodable (.bulletinHeader header) ↔ stored.Fits := by
  obtain ⟨stored', hstored', rfl⟩ := hlists
  obtain rfl := Except.ok.inj (hstored.symm.trans hstored')
  obtain ⟨hmin, hmax, hcreated⟩ := storedHeader_range hstored
  rw [encodable_bulletinHeader]
  constructor
  · rintro ⟨-, hat, hauthor, htitle⟩
    exact ⟨(validU32_natCast.mp hat).1, hauthor, htitle⟩
  · rintro ⟨hat, hauthor, htitle⟩
    exact ⟨validU32_natCast.mpr ⟨Nat.pos_iff_ne_zero.mp hmin, hmax⟩,
      validU32_natCast.mpr ⟨hat, hcreated⟩, hauthor, htitle⟩

/-- The `BULLETIN` of a stored bulletin. -/
def StoredBulletin.toBulletin (bulletin : StoredBulletin) : Bulletin :=
  ⟨bulletin.sequence, bulletin.createdAt, bulletin.author, bulletin.title, bulletin.body⟩

/-- A bulletin of the tables is encoded exactly when it fits. -/
theorem valid_toBulletin {e : ℕ × BulletinRow} {bulletin : StoredBulletin}
    (hstored : storedBulletin e = .ok bulletin) : bulletin.toBulletin.Valid ↔ bulletin.Fits := by
  obtain ⟨hmin, hmax, hcreated⟩ := storedBulletin_range hstored
  constructor
  · rintro ⟨-, hat, hauthor, htitle, hbody⟩
    exact ⟨(validU32_natCast.mp hat).1, hauthor, htitle, hbody⟩
  · rintro ⟨hat, hauthor, htitle, hbody⟩
    exact ⟨validU32_natCast.mpr ⟨Nat.pos_iff_ne_zero.mp hmin, hmax⟩,
      validU32_natCast.mpr ⟨hat, hcreated⟩, hauthor, htitle, hbody⟩

end Rules

/-! ### Answers to a frame -/

section Serving

variable {ω : Type} (listeners : List (Listener ω)) (clock : ℤ) (callsign : Str)

/-- The frame is answered with these objects, and nothing changes. -/
def Node.Serves (node : Node ω) (frame : Bytes) (responses : List ProtocolObject) : Prop :=
  ∃ frames, (Node.handleFrame listeners clock callsign frame).run node = (.ok frames, node) ∧
    frames.map decodeFrame = responses.map .ok

/-- The frame makes `handle_frame` raise, and nothing changes. -/
def Node.Fails (node : Node ω) (frame : Bytes) : Prop :=
  ∃ e, (Node.handleFrame listeners clock callsign frame).run node = (.error e, node)

variable {node : Node ω} {frame : Bytes} {request : ProtocolObject}
    {responses : List ProtocolObject}

/-- The answer to a request that only reads. -/
theorem Node.handleFrame_quiet (hrequest : decodeFrame frame = .ok request)
    (hrun : (OpenQSP.dispatch ⟨true, true⟩ clock callsign request).run node.tables =
      (.ok (responses, []), node.tables)) :
    (Node.handleFrame listeners clock callsign frame).run node =
      (responses.mapM fun response => encodeFrame response false, node) := by
  have hdispatch : (Node.dispatch listeners clock callsign request).run node =
    (.ok responses, node) := by
    rw [Node.run_dispatch, hrun]
    rfl
  rw [Node.handleFrame, OpenQSP.handleFrame, hrequest]
  dsimp only
  rw [run_bind_of_ok hdispatch, run_ofExcept]

/-- An answer is served when all its objects can be encoded, and otherwise the call raises. -/
theorem Node.serves_iff (hrequest : decodeFrame frame = .ok request)
    (hrun : (OpenQSP.dispatch ⟨true, true⟩ clock callsign request).run node.tables =
      (.ok (responses, []), node.tables)) :
    ((∀ response ∈ responses, Encodable response) →
      Node.Serves listeners clock callsign node frame responses) ∧
    ((∃ response ∈ responses, ¬Encodable response) →
      Node.Fails listeners clock callsign node frame) := by
  have hframe := Node.handleFrame_quiet listeners clock callsign hrequest hrun
  constructor
  · intro hall
    obtain ⟨frames, hframes, hmapM⟩ := Py.exists_mapM hall
    rw [hmapM] at hframe
    exact ⟨frames, hframe, map_decodeFrame hframes⟩
  · rintro ⟨response, hmem, hnot⟩
    rcases hmapM : responses.mapM fun response => encodeFrame response false with e | frames
    · rw [hmapM] at hframe
      exact ⟨e, hframe⟩
    · have hflip : List.Forall₂ (fun data response => encodeFrame response false = .ok data) frames
          responses := (Py.mapM_eq_ok.mp hmapM).flip
      obtain ⟨data, -, hencode⟩ := Py.exists_of_mem_forall₂ hflip hmem
      exact absurd ⟨data, hencode⟩ hnot

theorem run_quiet {m : Method PyError Tables (List ProtocolObject)} {t : Tables}
    (h : m.run t = (.ok responses, t)) :
    (m >>= fun responses => pure (responses, ([] : List Message))).run t =
      (.ok (responses, []), t) := by
  rw [run_bind_of_ok h]
  rfl

/-! ### The read requests -/

variable {since limit : ℤ}

/-- The `END` of a page can be encoded. -/
theorem encodable_endOfPage {operation : Operation} (hoperation : operation.isRetrieval) {count : ℕ}
    {nextSince : ℤ} {hasMore : Bool} (hcount : (count : ℤ) ≤ limit)
      (hlimit : limit ≤ maxRetrievalLimit)
    (hpos : 0 ≤ nextSince) (hle : nextSince ≤ maxU32) :
    Encodable (.end ⟨operation, count, nextSince, hasMore⟩) := by
  refine encodable_end ⟨hoperation, ⟨Int.natCast_nonneg _, ?_⟩, hpos, hle⟩
  rw [maxRetrievalLimit] at hlimit
  show (count : ℤ) ≤ 0xFF
  omega

theorem sent_length_le {α ι : Type} {position : α → ℤ} {log : List α} {sent : List ι}
    (hlimit : 1 ≤ limit) (hlen : (page position log since limit.toNat).length = sent.length) :
    (sent.length : ℤ) ≤ limit := by
  have hle : (page position log since limit.toNat).length ≤ limit.toNat := List.length_take_le _ _
  omega

/-- The cursor after a page is an unsigned 32-bit value. -/
theorem cursorAfter_page_le {α : Type} {position : α → ℤ} {log : List α} {highest : ℤ} {n : ℕ}
    (hsince : since ≤ highest) (hlog : ∀ a ∈ log, position a ≤ highest) :
    cursorAfter position since (page position log since n) ≤ highest := by
  rcases cursorAfter_eq_or position since (page position log since n) with
    hcursor | ⟨a, ha, hcursor⟩
  · rw [hcursor]
    exact hsince
  · rw [hcursor]
    exact hlog a (page_subset_beyond ha).1

/-- What a row is delivered as, and when it can be encoded. -/
theorem Tables.Consistent.encodable_delivers {t : Tables} {e : (Str × ℕ) × MessageRow}
    {message : Message} {stored : StoredMessage} (hstored : storedMessage e = .ok stored)
    (hdelivers : t.Delivers e message) : Encodable (.message message) ↔ stored.Fits := by
  obtain ⟨stored', hstored', hevent⟩ := hdelivers
  obtain rfl := Except.ok.inj (hstored.symm.trans hstored')
  obtain ⟨number, hnumber, hevent⟩ := Py.bind_eq_ok.mp hevent
  obtain rfl := Except.ok.inj hevent
  obtain ⟨hpos, hle⟩ := conversationSequence_range hnumber
  exact encodable_message.trans (valid_toMessage hstored hpos hle)

/-- A page of a mailbox can be encoded when its messages fit. -/
theorem Tables.Consistent.encodable_messages {t : Tables} (h : t.Consistent) (hpos : 0 ≤ since)
    (hsince : since ≤ t.highest callsign) (hlimit : 1 ≤ limit ∧ limit ≤ maxRetrievalLimit)
    {sent : List Message} (hsent : List.Forall₂ t.Delivers
      (page mailboxPosition (t.mailbox callsign) since limit.toNat) sent)
    (hfits : ∀ e ∈ page mailboxPosition (t.mailbox callsign) since limit.toNat,
      ∀ stored, storedMessage e = .ok stored → stored.Fits) {more : Bool} :
    ∀ response ∈ sent.map .message ++ [.end ⟨.getNewMessages, sent.length,
      cursorAfter mailboxPosition since
        (page mailboxPosition (t.mailbox callsign) since limit.toNat), more⟩],
          Encodable response := by
  intro response hresponse
  rcases List.mem_append.mp hresponse with hresponse | hresponse
  · obtain ⟨message, hmessage, rfl⟩ := List.mem_map.mp hresponse
    obtain ⟨e, he, hdelivers⟩ := Py.exists_of_mem_forall₂ hsent hmessage
    obtain ⟨stored, hstored⟩ := h.readable e (h.mem_mailbox.mp (page_subset_beyond he).1).1
    exact (encodable_delivers hstored hdelivers).mpr (hfits e he stored hstored)
  · rw [List.mem_singleton.mp hresponse]
    refine encodable_endOfPage rfl ?_ hlimit.2 (hpos.trans self_le_cursorAfter_page) ?_
    · exact sent_length_le hlimit.1 hsent.length_eq
    · refine (cursorAfter_page_le hsince fun e he => ?_).trans
        (Int.ofNat_le.mpr (h.highest_le callsign))
      exact Int.ofNat_le.mpr ((h.contiguous_mailbox callsign).le he).2

/-- A page of the bulletins can be encoded when its headers fit. -/
theorem Tables.BulletinsConsistent.encodable_headers {t : Tables} (h : t.BulletinsConsistent)
    (hpos : 0 ≤ since) (hsince : since ≤ t.bulletinSequence)
    (hlimit : 1 ≤ limit ∧ limit ≤ maxRetrievalLimit) {sent : List BulletinHeader}
    (hsent : List.Forall₂ Lists (page bulletinPosition t.bulletins.entries since limit.toNat) sent)
    (hfits : ∀ e ∈ page bulletinPosition t.bulletins.entries since limit.toNat,
      ∀ stored, storedHeader e = .ok stored → stored.Fits) {more : Bool} :
    ∀ response ∈ sent.map .bulletinHeader ++ [.end ⟨.getNewBulletins, sent.length,
      cursorAfter bulletinPosition since
        (page bulletinPosition t.bulletins.entries since limit.toNat), more⟩],
          Encodable response := by
  intro response hresponse
  rcases List.mem_append.mp hresponse with hresponse | hresponse
  · obtain ⟨header, hheader, rfl⟩ := List.mem_map.mp hresponse
    obtain ⟨e, he, hlists⟩ := Py.exists_of_mem_forall₂ hsent hheader
    obtain ⟨stored, hstored⟩ := h.header (page_subset_beyond he).1
    exact (encodable_lists hstored hlists).mpr (hfits e he stored hstored)
  · rw [List.mem_singleton.mp hresponse]
    refine encodable_endOfPage rfl ?_ hlimit.2 (hpos.trans self_le_cursorAfter_page) ?_
    · exact sent_length_le hlimit.1 hsent.length_eq
    · refine (cursorAfter_page_le hsince fun e he => ?_).trans (Int.ofNat_le.mpr h.highest_le)
      exact Int.ofNat_le.mpr (h.contiguous.le he).2

/-- One page of a mailbox is served when its messages fit, and otherwise the call raises. -/
theorem serves_messages (h : node.tables.Consistent)
    (hcallsign : validateCallsign callsign "authenticated_callsign" = .ok callsign)
    (hrequest : decodeFrame frame = .ok (.getNewMessages ⟨since, limit⟩))
    (hsince : since ≤ node.tables.highest callsign) :
    ∃ (sent : List Message) (last : End), List.Forall₂ node.tables.Delivers
        (page mailboxPosition (node.tables.mailbox callsign) since limit.toNat) sent ∧
      ((∀ e ∈ page mailboxPosition (node.tables.mailbox callsign) since limit.toNat,
          ∀ stored, storedMessage e = .ok stored → stored.Fits) →
        Node.Serves listeners clock callsign node frame (sent.map .message ++ [.end last])) ∧
      ((∃ e ∈ page mailboxPosition (node.tables.mailbox callsign) since limit.toNat,
          ∃ stored, storedMessage e = .ok stored ∧ ¬stored.Fits) →
        Node.Fails listeners clock callsign node frame) := by
  obtain ⟨hpos, -, hlimit⟩ := getNewMessages_of_decodeFrame hrequest
  obtain ⟨sent, hsent, hrun⟩ := handleGetNewMessages_ok true h hcallsign hpos hsince hlimit
  obtain ⟨hserves, hfails⟩ := Node.serves_iff listeners clock callsign hrequest (run_quiet hrun)
  refine ⟨sent, _, hsent, fun hfits => hserves
    (h.encodable_messages callsign hpos hsince hlimit hsent hfits), ?_⟩
  · rintro ⟨e, he, stored, hstored, hnot⟩
    have hflip : List.Forall₂ (fun message e => node.tables.Delivers e message) sent
        (page mailboxPosition (node.tables.mailbox callsign) since limit.toNat) := hsent.flip
    obtain ⟨message, hmessage, hdelivers⟩ := Py.exists_of_mem_forall₂ hflip he
    refine hfails ⟨.message message, List.mem_append_left _ (List.mem_map_of_mem hmessage), ?_⟩
    rw [Consistent.encodable_delivers hstored hdelivers]
    exact hnot

/-- One page of the bulletins is served when its headers fit, and otherwise the call raises. -/
theorem serves_headers (h : node.tables.BulletinsConsistent)
    (hcallsign : validateCallsign callsign "authenticated_callsign" = .ok callsign)
    (hrequest : decodeFrame frame = .ok (.getNewBulletins ⟨since, limit⟩))
    (hsince : since ≤ node.tables.bulletinSequence) :
    ∃ (sent : List BulletinHeader) (last : End), List.Forall₂ Lists
        (page bulletinPosition node.tables.bulletins.entries since limit.toNat) sent ∧
      ((∀ e ∈ page bulletinPosition node.tables.bulletins.entries since limit.toNat,
          ∀ stored, storedHeader e = .ok stored → stored.Fits) →
        Node.Serves listeners clock callsign node frame (sent.map .bulletinHeader ++ [.end last])) ∧
      ((∃ e ∈ page bulletinPosition node.tables.bulletins.entries since limit.toNat,
          ∃ stored, storedHeader e = .ok stored ∧ ¬stored.Fits) →
        Node.Fails listeners clock callsign node frame) := by
  obtain ⟨hpos, -, hlimit⟩ := getNewBulletins_of_decodeFrame hrequest
  obtain ⟨sent, hsent, hrun⟩ := handleGetNewBulletins_ok true h hcallsign hpos hsince hlimit
  obtain ⟨hserves, hfails⟩ := Node.serves_iff listeners clock callsign hrequest (run_quiet hrun)
  refine ⟨sent, _, hsent, fun hfits => hserves (h.encodable_headers hpos hsince hlimit hsent hfits),
    ?_⟩
  · rintro ⟨e, he, stored, hstored, hnot⟩
    have hflip : List.Forall₂ (fun header e => Lists e header) sent
        (page bulletinPosition node.tables.bulletins.entries since limit.toNat) := hsent.flip
    obtain ⟨header, hheader, hlists⟩ := Py.exists_of_mem_forall₂ hflip he
    refine hfails ⟨.bulletinHeader header, List.mem_append_left _ (List.mem_map_of_mem hheader), ?_⟩
    rw [encodable_lists hstored hlists]
    exact hnot

/-- A point lookup that finds a message is served when the message fits, and otherwise raises. -/
theorem serves_message
    (hcallsign : validateCallsign callsign "authenticated_callsign" = .ok callsign) {peer : Str}
    {number : ℤ} (hrequest : decodeFrame frame = .ok (.getMessage ⟨peer, number⟩))
    (hpeer : validateCallsign peer "peer" = .ok peer) {e : (Str × ℕ) × MessageRow}
    {stored : StoredMessage} (hstored : storedMessage e = .ok stored)
    (hfound : getConversationMessage callsign peer number node.tables = .ok (some stored)) :
    (stored.Fits → Node.Serves listeners clock callsign node frame
      [.message (stored.toMessage number.toNat)]) ∧
    (¬stored.Fits → Node.Fails listeners clock callsign node frame) := by
  have hrange : 1 ≤ number ∧ number ≤ 0xFFFFFFFF := getMessage_of_decodeFrame hrequest
  obtain ⟨n, rfl⟩ := Int.eq_ofNat_of_zero_le (by omega : 0 ≤ number)
  obtain ⟨hserves, hfails⟩ := Node.serves_iff listeners clock callsign hrequest
    (run_quiet (handleGetMessage_found true hcallsign hpeer hfound))
  have hvalid : Encodable (.message (stored.toMessage n)) ↔ stored.Fits :=
    encodable_message.trans (valid_toMessage hstored (by omega) (by rw [maxU32]; omega))
  constructor
  · intro hfits
    refine hserves fun response hresponse => ?_
    rw [List.mem_singleton.mp hresponse]
    exact hvalid.mpr hfits
  · intro hnot
    exact hfails ⟨_, List.mem_singleton_self _, fun hencodable => hnot (hvalid.mp hencodable)⟩

/-- The answer to a request for a bulletin that is there. -/
theorem handleGetBulletin_found {t : Tables} (messages : Bool) {sequence : ℤ}
    {bulletin : StoredBulletin}
    (hcallsign : validateCallsign callsign "authenticated_callsign" = .ok callsign)
    (hfound : getBulletin sequence t = .ok (some bulletin)) :
    (handleGetBulletin ⟨messages, true⟩ callsign ⟨sequence⟩).run t =
      (.ok [.bulletin bulletin.toBulletin], t) := by
  rw [handleGetBulletin, if_neg (by simp), withCallsign_ok hcallsign, run_get_bind, hfound]
  rfl

/-- A bulletin is served when it fits, and otherwise the call raises. -/
theorem serves_bulletin
    (hcallsign : validateCallsign callsign "authenticated_callsign" = .ok callsign) {sequence : ℤ}
    (hrequest : decodeFrame frame = .ok (.getBulletin ⟨sequence⟩)) {e : ℕ × BulletinRow}
    {bulletin : StoredBulletin} (hstored : storedBulletin e = .ok bulletin)
    (hfound : getBulletin sequence node.tables = .ok (some bulletin)) :
    (bulletin.Fits → Node.Serves listeners clock callsign node frame
      [.bulletin bulletin.toBulletin]) ∧
    (¬bulletin.Fits → Node.Fails listeners clock callsign node frame) := by
  obtain ⟨hserves, hfails⟩ := Node.serves_iff listeners clock callsign hrequest
    (run_quiet (handleGetBulletin_found callsign true hcallsign hfound))
  have hvalid : Encodable (.bulletin bulletin.toBulletin) ↔ bulletin.Fits :=
    encodable_bulletin.trans (valid_toBulletin hstored)
  constructor
  · intro hfits
    refine hserves fun response hresponse => ?_
    rw [List.mem_singleton.mp hresponse]
    exact hvalid.mpr hfits
  · intro hnot
    exact hfails ⟨_, List.mem_singleton_self _, fun hencodable => hnot (hvalid.mp hencodable)⟩

/-! ### Whatever is stored -/

/-- The frames of a page carry exactly the rows of the page when these fit, and the request raises
when one of them does not; a point lookup does the same for the one object it finds. -/
structure Node.ServesWhatFits (node : Node ω) : Prop where
  messages : ∀ frame (since limit : ℤ), decodeFrame frame = .ok (.getNewMessages ⟨since, limit⟩) →
    since ≤ node.tables.highest callsign →
    ∃ (sent : List Message) (last : End), List.Forall₂ node.tables.Delivers
        (page mailboxPosition (node.tables.mailbox callsign) since limit.toNat) sent ∧
      ((∀ e ∈ page mailboxPosition (node.tables.mailbox callsign) since limit.toNat,
          ∀ stored, storedMessage e = .ok stored → stored.Fits) →
        Node.Serves listeners clock callsign node frame (sent.map .message ++ [.end last])) ∧
      ((∃ e ∈ page mailboxPosition (node.tables.mailbox callsign) since limit.toNat,
          ∃ stored, storedMessage e = .ok stored ∧ ¬stored.Fits) →
        Node.Fails listeners clock callsign node frame)
  headers : ∀ frame (since limit : ℤ), decodeFrame frame = .ok (.getNewBulletins ⟨since, limit⟩) →
    since ≤ node.tables.bulletinSequence →
    ∃ (sent : List BulletinHeader) (last : End), List.Forall₂ Lists
        (page bulletinPosition node.tables.bulletins.entries since limit.toNat) sent ∧
      ((∀ e ∈ page bulletinPosition node.tables.bulletins.entries since limit.toNat,
          ∀ stored, storedHeader e = .ok stored → stored.Fits) →
        Node.Serves listeners clock callsign node frame (sent.map .bulletinHeader ++ [.end last])) ∧
      ((∃ e ∈ page bulletinPosition node.tables.bulletins.entries since limit.toNat,
          ∃ stored, storedHeader e = .ok stored ∧ ¬stored.Fits) →
        Node.Fails listeners clock callsign node frame)
  message : ∀ e ∈ node.tables.mailbox callsign, ∀ stored, storedMessage e = .ok stored →
    validateCallsign stored.author "peer" = .ok stored.author →
    ∃ number : ℕ, conversationSequence stored node.tables = .ok number ∧
      ∀ frame, decodeFrame frame = .ok (.getMessage ⟨stored.author, number⟩) →
        (stored.Fits → Node.Serves listeners clock callsign node frame
          [.message (stored.toMessage number)]) ∧
        (¬stored.Fits → Node.Fails listeners clock callsign node frame)
  bulletin : ∀ e ∈ node.tables.bulletins.entries, ∃ bulletin, storedBulletin e = .ok bulletin ∧
    ∀ frame, decodeFrame frame = .ok (.getBulletin ⟨bulletin.sequence⟩) →
      (bulletin.Fits →
        Node.Serves listeners clock callsign node frame [.bulletin bulletin.toBulletin]) ∧
      (¬bulletin.Fits → Node.Fails listeners clock callsign node frame)

/-- A bulletin is found under its sequence. -/
theorem getBulletin_found {t : Tables}
    {e : ℕ × BulletinRow} (he : e ∈ t.bulletins.entries) {bulletin : StoredBulletin}
    (hstored : storedBulletin e = .ok bulletin) :
    getBulletin bulletin.sequence t = .ok (some bulletin) := by
  obtain ⟨hmin, hmax, -⟩ := storedBulletin_range hstored
  have hsequence : bulletin.sequence = e.1 := storedBulletin_sequence hstored
  have hfind : t.bulletins.entries.find? (fun e' => (e'.1 : ℤ) = (bulletin.sequence : ℤ)) =
    some e := by
    obtain ⟨e', he'⟩ := Option.isSome_iff_exists.mp (List.find?_isSome
      (p := fun e' : ℕ × BulletinRow => (e'.1 : ℤ) = (bulletin.sequence : ℤ)) |>.mpr
        ⟨e, he, by rw [hsequence]; exact decide_eq_true rfl⟩)
    have hkey : e'.1 = e.1 := by
      have hkey := List.find?_some he'
      rw [decide_eq_true_eq, hsequence, Int.natCast_inj] at hkey
      exact hkey
    rw [he', OrderedDict.eq_of_fst_eq (List.mem_of_find?_eq_some he') he hkey]
  have hle : (bulletin.sequence : ℤ) ≤ maxU32 := by exact_mod_cast hmax
  rw [getBulletin, requireNonzeroU32, requireU32_of_le _ (by omega) hle, Py.ok_bind,
    raiseIf_of_not (by omega), Py.ok_bind, hfind]
  simp only [hstored]
  rfl

/-- A node with a sound database serves what fits, and only that. -/
theorem Tables.Sound.servesWhatFits (h : node.tables.Sound)
    (hcallsign : validateCallsign callsign "authenticated_callsign" = .ok callsign) :
    Node.ServesWhatFits listeners clock callsign node where
  messages frame since limit hrequest hsince :=
    serves_messages listeners clock callsign h.messages hcallsign hrequest hsince
  headers frame since limit hrequest hsince :=
    serves_headers listeners clock callsign h.bulletins hcallsign hrequest hsince
  message e he stored hstored hpeer := by
    obtain ⟨hentry, hrecipient⟩ := h.messages.mem_mailbox.mp he
    obtain ⟨-, -, -, hr, -, -⟩ := storedMessage_eq_ok hstored
    obtain ⟨number, hnumbered⟩ := h.numbered hentry hstored
    have hfound := hnumbered.found
    rw [hr, hrecipient] at hfound
    exact ⟨number, hnumbered.counted, fun frame hrequest =>
      serves_message listeners clock callsign hcallsign hrequest hpeer hstored hfound⟩
  bulletin e he := by
    obtain ⟨bulletin, hstored⟩ := h.bulletins.readable e he
    exact ⟨bulletin, hstored, fun frame hrequest =>
      serves_bulletin listeners clock callsign hcallsign
      hrequest hstored (getBulletin_found he hstored)⟩

/-- A message that was stored is there, with its content, in all that follows. -/
theorem storeMessage_kept {t : Tables} (h : t.Sound) {createdAt clock : ℤ}
    {author recipient body : Str} {faults : Faults} {sequence : ℕ}
    (hrun : ((storeMessage createdAt author recipient body clock faults).run t).1 = .ok sequence)
    (later : List DatabaseCall) :
    ∃ e ∈ (later.foldl DatabaseCall.next ((DatabaseCall.message
        (.storeMessage createdAt author recipient body clock faults)).next t)).mailbox recipient,
      ∃ stored, storedMessage e = .ok stored ∧ stored.sequence = sequence ∧
        (stored.createdAt : ℤ) = createdAt ∧ stored.author = author ∧ stored.body = body := by
  obtain ⟨-, hok⟩ := storeMessage_spec t createdAt author recipient body clock faults
  obtain ⟨message, haccepts, rfl⟩ := hok _ hrun
  have hnext : (DatabaseCall.message (.storeMessage createdAt author recipient body clock
    faults)).next t =
      ((storeMessage createdAt author recipient body clock faults).run t).2 := (run_discard _ t).1
  rw [← hnext] at haccepts
  have houtcome : KeyedOutcome t createdAt author recipient body [] none (message, true) _ :=
    .unkeyed haccepts
  obtain ⟨⟨e, he, -, hstored⟩, hauthor, hrecipient, hbody, hcreated⟩ := houtcome.stored
  obtain ⟨h', hgrows⟩ := foldl_next (houtcome.sound h) later
  obtain ⟨-, -, -, hr, -, -⟩ := storedMessage_eq_ok hstored
  exact ⟨e, h'.messages.mem_mailbox.mpr ⟨hgrows.messages.subset he, hr.symm.trans hrecipient⟩,
    message,
    hstored, rfl, hcreated, hauthor, hbody⟩

/-- A bulletin that was stored is there, with its content, in all that follows. -/
theorem storeBulletin_kept {t : Tables} (h : t.Sound) {createdAt clock : ℤ}
    {author title body : Str} {faults : Faults} {sequence : ℕ}
    (hrun : ((storeBulletin createdAt author title body clock faults).run t).1 = .ok sequence)
    (later : List DatabaseCall) :
    ∃ e ∈ (later.foldl DatabaseCall.next
        ((DatabaseCall.bulletin createdAt author title body clock faults).next
          t)).bulletins.entries,
      ∃ bulletin, storedBulletin e = .ok bulletin ∧ bulletin.sequence = sequence ∧
        (bulletin.createdAt : ℤ) = createdAt ∧ bulletin.author = author ∧ bulletin.title = title ∧
          bulletin.body = body := by
  obtain ⟨-, hok⟩ := storeBulletin_spec t createdAt author title body clock faults
  obtain ⟨bulletin, hpublishes, rfl⟩ := hok _ hrun
  have hnext : (DatabaseCall.bulletin createdAt author title body clock faults).next t =
      ((storeBulletin createdAt author title body clock faults).run t).2 := (run_discard _ t).1
  rw [← hnext] at hpublishes
  obtain ⟨row, hentries, hstored, -⟩ := hpublishes.entries
  obtain ⟨-, hgrows⟩ := foldl_next (DatabaseCall.next_spec h _).1 later
  refine ⟨_, hgrows.bulletins.subset ?_, bulletin, hstored, rfl, hpublishes.created.1, ?_, ?_, ?_⟩
  · rw [hentries]
    exact List.mem_append_right _ (List.mem_singleton_self _)
  all_goals rw [hpublishes.bulletin_eq]

/-- `send_message` accepts what the encoder accepts. -/
theorem validateSend_iff {author recipient body : Str} {createdAt : ℤ} :
    validateSend author recipient body createdAt = .ok () ↔
      ValidCallsign author ∧ (⟨createdAt, recipient, body⟩ : SendMessage).Valid := by
  rw [validateSend, Py.bind_eq_ok, ← encodable_sendMessage]
  constructor
  · rintro ⟨author', hauthor, h⟩
    obtain ⟨recipient', -, h⟩ := Py.bind_eq_ok.mp h
    obtain ⟨frame, hframe, -⟩ := Py.bind_eq_ok.mp h
    obtain ⟨data, hdata, -⟩ := Py.bind_eq_ok.mp hauthor
    exact ⟨(exists_callsignBytes _).mp ⟨data, hdata⟩, frame, hframe⟩
  · rintro ⟨hauthor, hrequest⟩
    refine ⟨author, (validateCallsign_iff _).mpr hauthor, ?_⟩
    rw [(validateCallsign_iff _).mpr (encodable_sendMessage.mp hrequest).recipient, Py.ok_bind]
    obtain ⟨frame, hframe⟩ := hrequest
    rw [hframe]
    rfl

/-- A message that `send_message` creates fits. -/
theorem SendCall.accept_fits {t t' : Tables} (h : t.Consistent) {call : SendCall}
    {acceptance : MessageAcceptance} {event : Option Message}
    (hrun : call.accept.run t = (.ok (acceptance, event), t'))
      (hcreated : acceptance.created = true) :
    acceptance.message.Fits := by
  have hvalid : validateSend call.author call.recipient call.body call.createdAt = .ok () := by
    rcases hvalid : validateSend call.author call.recipient call.body call.createdAt with e | _
    · rw [SendCall.accept, acceptMessage, hvalid] at hrun
      cases hrun
    · rfl
  obtain ⟨hauthor, hat, hrecipient, hbody⟩ := validateSend_iff.mp hvalid
  have houtcome := ((call.accept_spec h).2 (acceptance, event) (congrArg Prod.fst hrun)).1
  dsimp only at houtcome
  rw [hcreated] at houtcome
  obtain ⟨-, hauthor', hrecipient', hbody', hcreatedAt⟩ := houtcome.stored
  dsimp only at hat hrecipient hbody
  rw [← hcreatedAt] at hat
  rw [← hauthor'] at hauthor
  rw [← hrecipient'] at hrecipient
  rw [← hbody'] at hbody
  exact ⟨(validU32_natCast.mp hat).1, hauthor, hrecipient, hbody⟩

/-- **What is stored is served.** Whatever the calls of the stores were, what they accepted is there
with its content from then on. A request whose page or lookup consists of objects that fit is
answered with frames that carry exactly the stored contents; one whose page or lookup has an object
that does not fit raises. What `send_message` creates always fits. -/
theorem storedObjects_served (calls : List DatabaseCall) (hcallsign :
    validateCallsign callsign "authenticated_callsign" = .ok callsign) :
    (∀ node : Node ω, node.tables = databaseState calls →
      Node.ServesWhatFits listeners clock callsign node) ∧
    (∀ createdAt author recipient body clock faults sequence,
      ((storeMessage createdAt author recipient body clock faults).run (databaseState calls)).1 =
        .ok sequence →
      ∀ later, ∃ e ∈ (databaseState (calls ++ .message (.storeMessage createdAt author recipient body
          clock faults) :: later)).mailbox recipient,
        ∃ stored, storedMessage e = .ok stored ∧ stored.sequence = sequence ∧
          (stored.createdAt : ℤ) = createdAt ∧ stored.author = author ∧ stored.body = body) ∧
    (∀ createdAt author title body clock faults sequence,
      ((storeBulletin createdAt author title body clock faults).run (databaseState calls)).1 =
        .ok sequence →
      ∀ later, ∃ e ∈ (databaseState (calls ++ .bulletin createdAt author title body clock
          faults :: later)).bulletins.entries,
        ∃ bulletin, storedBulletin e = .ok bulletin ∧ bulletin.sequence = sequence ∧
          (bulletin.createdAt : ℤ) = createdAt ∧ bulletin.author = author ∧ bulletin.title = title ∧
            bulletin.body = body) ∧
    ∀ (call : SendCall) acceptance event created,
      call.accept.run (databaseState calls) = (.ok (acceptance, event), created) →
        acceptance.created = true → acceptance.message.Fits := by
  have h := sound_databaseState calls
  refine ⟨fun node hnode => ?_, ?_, ?_, fun call acceptance event created hrun =>
    call.accept_fits h.messages hrun⟩
  · rw [← hnode] at h
    exact h.servesWhatFits listeners clock callsign hcallsign
  · intro createdAt author recipient body clock faults sequence hrun later
    rw [databaseState, List.foldl_append]
    exact storeMessage_kept h hrun later
  · intro createdAt author title body clock faults sequence hrun later
    rw [databaseState, List.foldl_append]
    exact storeBulletin_kept h hrun later

end Serving

/-- A message without a timestamp. -/
def untimedMessage : DatabaseCall :=
  .message (.storeMessage 0 (str "EA1ABC") (str "K1XYZ") (str "73") 0 [])

theorem storedObjects_served_untimed :
    validateCallsign (str "K1XYZ") "authenticated_callsign" = .ok (str "K1XYZ") ∧
    Node.ServesWhatFits [] 0 (str "K1XYZ")
      (⟨databaseState [untimedMessage], (), []⟩ : Node Unit) := by
  have hcallsign : validateCallsign (str "K1XYZ") "authenticated_callsign" = .ok (str "K1XYZ") := by
    decide +kernel
  exact ⟨hcallsign, (storedObjects_served [] 0 (str "K1XYZ") [untimedMessage] hcallsign).1 _ rfl⟩

/-- The stores accept a message without a timestamp, and then the mailbox cannot be read. -/
theorem untimedMessage_blocks :
    ((storeMessage 0 (str "EA1ABC") (str "K1XYZ") (str "73") 0 []).run .fresh).1 = .ok 1 ∧
    decodeFrame [1, 2, 0, 5, 0, 0, 0, 0, 20] = .ok (.getNewMessages ⟨0, 20⟩) ∧
    ((Node.handleFrame [] 0 (str "K1XYZ") [1, 2, 0, 5, 0, 0, 0, 0, 20]).run
        (⟨databaseState [untimedMessage], (), []⟩ : Node Unit)).1 =
      .error (.invalidField "created_at must be a non-zero unsigned 32-bit value") := by
  decide +kernel

end OpenQSP
