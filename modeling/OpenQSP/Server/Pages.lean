import OpenQSP.Server.Responses
import OpenQSP.Storage.Conversations

/-!
# Pages of the mailbox and of the bulletins

What the read handlers answer on sound tables. A page is the next part of a log; the `END` behind it
says how many items there were, where to go on, and whether there are more.

## Main definitions

* `Tables.Delivers` — a row of `messages` and its `MESSAGE`
* `Tables.Lists` — a row of `bulletins` and its `BULLETIN_HEADER`

## Main results

* `getNewMessages_ok`, `getNewBulletins_ok` — the stores
* `handleGetNewMessages_ok`, `handleGetNewMessages_ahead`, `handleGetNewBulletins_ok`,
  `handleGetNewBulletins_ahead` — the handlers
* `Tables.Delivers.grows` — the `MESSAGE` of a row is always the same
-/

namespace OpenQSP

open Method

/-- The `MESSAGE` that a row is delivered as. -/
def Tables.Delivers (t : Tables) (e : (Str × ℕ) × MessageRow) (message : Message) : Prop :=
  ∃ stored, storedMessage e = .ok stored ∧ messageEvent stored t = .ok message

/-- The `BULLETIN_HEADER` that a row is listed as. -/
def Tables.Lists (e : ℕ × BulletinRow) (header : BulletinHeader) : Prop :=
  ∃ stored, storedHeader e = .ok stored ∧
    header = ⟨stored.sequence, stored.createdAt, stored.author, stored.title⟩

section Pages

open Tables

variable {t t' : Tables} {callsign : Str} {since limit : ℤ}

/-! ### Rows and what they are delivered as -/

theorem Tables.Delivers.sequence {e : (Str × ℕ) × MessageRow} {message : Message}
    (h : t.Delivers e message) : message.sequence = e.1.2 := by
  obtain ⟨stored, hstored, hevent⟩ := h
  rw [messageEvent_sequence hevent, storedMessage_sequence hstored]

theorem Tables.Delivers.unique {e : (Str × ℕ) × MessageRow} {message message' : Message}
    (h : t.Delivers e message) (h' : t.Delivers e message') : message = message' := by
  obtain ⟨stored, hstored, hevent⟩ := h
  obtain ⟨stored', hstored', hevent'⟩ := h'
  obtain rfl := Except.ok.inj (hstored.symm.trans hstored')
  exact Except.ok.inj (hevent.symm.trans hevent')

/-- A row that is there is delivered. -/
theorem Tables.Consistent.delivers (h : t.Consistent) {e : (Str × ℕ) × MessageRow}
    (he : e ∈ t.messages.entries) : ∃ message, t.Delivers e message := by
  obtain ⟨stored, hstored⟩ := h.readable e he
  obtain ⟨n, hevent⟩ := messageEvent_ok h he hstored
  exact ⟨_, stored, hstored, hevent⟩

/-- Later messages do not change what a row is delivered as. -/
theorem Tables.Delivers.grows {e : (Str × ℕ) × MessageRow} {message : Message}
    (hdelivers : t.Delivers e message) (he : e ∈ t.messages.entries) (hgrows : t.Grows t')
    (h : t.Consistent) (h' : t'.Consistent) : t'.Delivers e message := by
  obtain ⟨stored, hstored, hevent⟩ := hdelivers
  obtain ⟨i, -, hnumber, -, hnumber'⟩ := conversationSequence_grows hgrows h h' he hstored
  refine ⟨stored, hstored, ?_⟩
  rw [messageEvent, hnumber] at hevent
  rw [messageEvent, hnumber']
  exact hevent

/-- What the rows of a page are read as has events, and that is what the rows are delivered as. -/
theorem Tables.Consistent.exists_delivered (h : t.Consistent)
    {rows : List ((Str × ℕ) × MessageRow)} {stored : List StoredMessage}
    (hstored : List.Forall₂
      (fun e message => storedMessage (e.1, { e.2 with apiSequence := 0 }) = .ok message)
        rows stored)
    (hrows : ∀ e ∈ rows, e ∈ t.messages.entries) :
    ∃ sent, List.Forall₂ t.Delivers rows sent ∧
      List.Forall₂ (fun message event => messageEvent message t = .ok event) stored sent := by
  induction hstored with
  | nil => exact ⟨[], .nil, .nil⟩
  | @cons e message _ _ hmessage _ ih =>
    obtain ⟨sent, hsent, hsent'⟩ := ih fun e he => hrows e (List.mem_cons_of_mem _ he)
    obtain ⟨event, original, horiginal, hevent⟩ := h.delivers (hrows e List.mem_cons_self)
    obtain rfl := Except.ok.inj ((storedMessage_withoutApi horiginal).symm.trans hmessage)
    exact ⟨event :: sent, .cons ⟨original, horiginal, hevent⟩ hsent, .cons hevent hsent'⟩

/-! ### The stores -/

theorem mailboxSequence_ok (hcallsign : (encodeUtf8 callsign).isSome) :
    t.mailboxSequence callsign = .ok (t.mailboxSequences.get? callsign) := by
  rw [mailboxSequence, bindText_of_isSome hcallsign]
  rfl

/-- In consistent tables the high-water value agrees with the messages. -/
theorem mailboxHighest_ok (h : t.Consistent) (callsign : Str) :
    mailboxHighest (t.mailboxSequences.get? callsign)
      ((t.mailbox callsign).getLast?.map fun e => e.1.2) = .ok (t.highest callsign) :=
  mailboxHighest_contiguous (h.contiguous_mailbox callsign) (h.highest_le callsign)

theorem validateRetrievalLimit_ok (hlimit : 1 ≤ limit ∧ limit ≤ maxRetrievalLimit) :
    validateRetrievalLimit limit = .ok () := raiseIf_of_not (not_not.mpr hlimit) _

/-- One page of a mailbox. -/
theorem getNewMessages_ok (h : t.Consistent) (hcallsign : (encodeUtf8 callsign).isSome)
    (hpos : 0 ≤ since) (hsince : since ≤ t.highest callsign)
    (hlimit : 1 ≤ limit ∧ limit ≤ maxRetrievalLimit) :
    ∃ messages,
      List.Forall₂ (fun e message => storedMessage (e.1, { e.2 with apiSequence := 0 }) =
        .ok message)
        (page mailboxPosition (t.mailbox callsign) since limit.toNat) messages ∧
      getNewMessages callsign since limit t = .ok ⟨messages,
        cursorAfter mailboxPosition since (page mailboxPosition (t.mailbox callsign) since
          limit.toNat),
        decide (limit.toNat <
          (page mailboxPosition (t.mailbox callsign) since (limit.toNat + 1)).length)⟩ := by
  have hmax : since ≤ maxU32 := hsince.trans (by exact_mod_cast h.highest_le callsign)
  obtain ⟨messages, hmessages, hmapM⟩ := Py.exists_mapM
    (f := fun e : (Str × ℕ) × MessageRow => storedMessage (e.1, { e.2 with apiSequence := 0 }))
    (l := page mailboxPosition (t.mailbox callsign) since limit.toNat) fun e he => by
      obtain ⟨stored, hstored⟩ := h.readable e (h.mem_mailbox.mp (page_subset_beyond he).1).1
      exact ⟨_, storedMessage_withoutApi hstored⟩
  have htake : (page mailboxPosition (t.mailbox callsign) since (limit.toNat + 1)).take
    limit.toNat =
      page mailboxPosition (t.mailbox callsign) since limit.toNat := by
    rw [page, List.take_take, Nat.min_eq_left (Nat.le_succ _)]
    rfl
  have hcursor : messages.getLast?.elim since (fun message => (message.sequence : ℤ)) =
      cursorAfter mailboxPosition since
        (page mailboxPosition (t.mailbox callsign) since limit.toNat) := by
    have hsequences : List.Forall₂
        (fun e (message : StoredMessage) => mailboxPosition e = (message.sequence : ℤ))
        (page mailboxPosition (t.mailbox callsign) since limit.toNat) messages :=
      hmessages.imp fun e message hmessage =>
        congrArg Nat.cast (storedMessage_sequence hmessage).symm
    rw [cursorAfter_congr hsequences, cursorAfter]
    cases messages.getLast? <;> rfl
  refine ⟨messages, hmessages, ?_⟩
  rw [getNewMessages, requireU32_of_le _ hpos hmax, Py.ok_bind, validateRetrievalLimit_ok hlimit,
    Py.ok_bind, mailboxSequence_ok hcallsign, Py.ok_bind, mailboxHighest_ok h, Py.ok_bind,
    raiseIf_of_not (not_lt.mpr hsince), Py.ok_bind, ← hcursor]
  change ((page mailboxPosition (t.mailbox callsign) since (limit.toNat + 1)).take
    limit.toNat).mapM _
    >>= _ = _
  rw [htake, hmapM, Py.ok_bind]
  rcases messages.getLast? with _ | last <;> rfl

/-- A cursor ahead of the mailbox is refused. -/
theorem getNewMessages_ahead (h : t.Consistent) (hcallsign : (encodeUtf8 callsign).isSome)
    (hsince : (t.highest callsign : ℤ) < since) (hmax : since ≤ maxU32)
    (hlimit : 1 ≤ limit ∧ limit ≤ maxRetrievalLimit) :
    getNewMessages callsign since limit t = .error ⟨.invalidCursorError, "message cursor " ++
      toString since ++ " is ahead of mailbox high-water " ++ toString (t.highest callsign)⟩ := by
  rw [getNewMessages, requireU32_of_le _ ((Int.natCast_nonneg _).trans hsince.le) hmax, Py.ok_bind,
    validateRetrievalLimit_ok hlimit, Py.ok_bind, mailboxSequence_ok hcallsign, Py.ok_bind,
    mailboxHighest_ok h, Py.ok_bind, raiseIf, if_pos hsince]
  rfl

/-- The rows of a page of bulletins. -/
theorem bulletinRows_eq (h : t.BulletinsConsistent) (since : ℤ) (n : ℕ) :
    ((t.bulletins.entries.filter fun e => since < (e.1 : ℤ)).insertionSort
      fun e e' => e.1 ≤ e'.1).take n = page bulletinPosition t.bulletins.entries since n := by
  have hsorted : (t.bulletins.entries.filter fun e => since < (e.1 : ℤ)).Pairwise
      fun e e' => e.1 ≤ e'.1 :=
    (h.ascending.sublist List.filter_sublist).imp fun hlt => (Int.ofNat_lt.mp hlt).le
  rw [hsorted.insertionSort_eq]
  rfl

theorem storedHeader_sequence {e : ℕ × BulletinRow} {header : StoredBulletinHeader}
    (h : storedHeader e = .ok header) : header.sequence = e.1 := by
  obtain ⟨sequence, hsequence, h⟩ := Py.bind_eq_ok.mp h
  obtain ⟨createdAt, -, h⟩ := Py.bind_eq_ok.mp h
  obtain ⟨_, -, hvalue⟩ := Py.bind_eq_ok.mp hsequence
  obtain rfl := Except.ok.inj hvalue
  rw [← Except.ok.inj h]

theorem Tables.BulletinsConsistent.header (h : t.BulletinsConsistent) {e : ℕ × BulletinRow}
    (he : e ∈ t.bulletins.entries) : ∃ header, storedHeader e = .ok header := by
  obtain ⟨bulletin, hbulletin⟩ := h.readable e he
  obtain ⟨header, hheader, -⟩ := Py.bind_eq_ok.mp hbulletin
  exact ⟨header, hheader⟩

/-- One page of the bulletins. -/
theorem getNewBulletins_ok (h : t.BulletinsConsistent) (hpos : 0 ≤ since)
    (hsince : since ≤ t.bulletinSequence) (hlimit : 1 ≤ limit ∧ limit ≤ maxRetrievalLimit) :
    ∃ headers, List.Forall₂ (fun e header => storedHeader e = .ok header)
        (page bulletinPosition t.bulletins.entries since limit.toNat) headers ∧
      getNewBulletins since limit t = .ok ⟨headers,
        cursorAfter bulletinPosition since
          (page bulletinPosition t.bulletins.entries since limit.toNat),
        decide (limit.toNat <
          (page bulletinPosition t.bulletins.entries since (limit.toNat + 1)).length)⟩ := by
  have hmax : since ≤ maxU32 := hsince.trans (by exact_mod_cast h.highest_le)
  obtain ⟨headers, hheaders, hmapM⟩ := Py.exists_mapM
    (l := page bulletinPosition t.bulletins.entries since limit.toNat)
    fun e he => h.header (page_subset_beyond he).1
  have htake : (page bulletinPosition t.bulletins.entries since (limit.toNat + 1)).take
    limit.toNat =
      page bulletinPosition t.bulletins.entries since limit.toNat := by
    rw [page, List.take_take, Nat.min_eq_left (Nat.le_succ _)]
    rfl
  have hcursor : headers.getLast?.elim since (fun header => (header.sequence : ℤ)) =
      cursorAfter bulletinPosition since
        (page bulletinPosition t.bulletins.entries since limit.toNat) := by
    have hsequences : List.Forall₂
        (fun e (header : StoredBulletinHeader) => bulletinPosition e = (header.sequence : ℤ))
        (page bulletinPosition t.bulletins.entries since limit.toNat) headers :=
      hheaders.imp fun e header hheader => congrArg Nat.cast (storedHeader_sequence hheader).symm
    rw [cursorAfter_congr hsequences, cursorAfter]
    cases headers.getLast? <;> rfl
  refine ⟨headers, hheaders, ?_⟩
  simp only [getNewBulletins, requireU32_of_le _ hpos hmax, validateRetrievalLimit_ok hlimit,
    validateStoredU32_of_le true (Nat.zero_le _) h.highest_le, raiseIf_of_not (not_lt.mpr hsince),
    bulletinRows_eq h, htake, hmapM, Py.ok_bind, ← hcursor]
  rcases headers.getLast? with _ | last <;> rfl

/-- A cursor ahead of the bulletins is refused. -/
theorem getNewBulletins_ahead (h : t.BulletinsConsistent)
    (hsince : (t.bulletinSequence : ℤ) < since)
    (hmax : since ≤ maxU32) (hlimit : 1 ≤ limit ∧ limit ≤ maxRetrievalLimit) :
    getNewBulletins since limit t = .error ⟨.invalidCursorError, "bulletin cursor " ++
      toString since ++ " is ahead of highest sequence " ++ toString t.bulletinSequence⟩ := by
  rw [getNewBulletins, requireU32_of_le _ ((Int.natCast_nonneg _).trans hsince.le) hmax, Py.ok_bind,
    validateRetrievalLimit_ok hlimit, Py.ok_bind,
    validateStoredU32_of_le true (Nat.zero_le _) h.highest_le, Py.ok_bind, raiseIf, if_pos hsince]
  rfl

/-! ### The handlers -/

theorem withCallsign_ok {α : Type} {callsign' : Str} {unauthorized : α}
    {handler : Str → Method PyError Tables α}
    (h : validateCallsign callsign "authenticated_callsign" = .ok callsign') :
    withCallsign callsign unauthorized handler = handler callsign' := by
  rw [withCallsign, h]

variable (bulletins messages : Bool)

/-- The answer to `GET_NEW_MESSAGES` with a cursor that is not ahead of the mailbox. -/
theorem handleGetNewMessages_ok (h : t.Consistent)
    (hcallsign : validateCallsign callsign "authenticated_callsign" = .ok callsign)
    (hpos : 0 ≤ since) (hsince : since ≤ t.highest callsign)
    (hlimit : 1 ≤ limit ∧ limit ≤ maxRetrievalLimit) :
    ∃ sent, List.Forall₂ t.Delivers
        (page mailboxPosition (t.mailbox callsign) since limit.toNat) sent ∧
      (handleGetNewMessages ⟨true, bulletins⟩ callsign ⟨since, limit⟩).run t =
        (.ok (sent.map .message ++ [.end ⟨.getNewMessages, sent.length,
          cursorAfter mailboxPosition since
            (page mailboxPosition (t.mailbox callsign) since limit.toNat),
          decide (∃ e ∈ t.mailbox callsign, cursorAfter mailboxPosition since
            (page mailboxPosition (t.mailbox callsign) since limit.toNat) < mailboxPosition e)⟩]),
              t) := by
  obtain ⟨stored, hstored, hpage⟩ := getNewMessages_ok h (validateCallsign_encodable hcallsign) hpos
    hsince hlimit
  obtain ⟨sent, hsent, hsent'⟩ := h.exists_delivered hstored fun e he =>
    (h.mem_mailbox.mp (page_subset_beyond he).1).1
  refine ⟨sent, hsent, ?_⟩
  have hmore := lt_length_page_iff (h.ascending_mailbox callsign) since limit.toNat
  rw [handleGetNewMessages, if_neg (by simp), withCallsign_ok hcallsign, run_get_bind, hpage]
  dsimp only
  rw [Py.mapM_eq_ok.mpr hsent', run_ofExcept_ok_bind, hsent'.length_eq, decide_eq_decide.mpr hmore]
  rfl

/-- The answer to a cursor that is ahead of the mailbox. -/
theorem handleGetNewMessages_ahead (h : t.Consistent)
    (hcallsign : validateCallsign callsign "authenticated_callsign" = .ok callsign)
    (hsince : (t.highest callsign : ℤ) < since) (hmax : since ≤ maxU32)
    (hlimit : 1 ≤ limit ∧ limit ≤ maxRetrievalLimit) :
    (handleGetNewMessages ⟨true, bulletins⟩ callsign ⟨since, limit⟩).run t =
      (.ok [errorResponse .getNewMessages .invalidCursor "invalid message cursor"], t) := by
  rw [handleGetNewMessages, if_neg (by simp), withCallsign_ok hcallsign, run_get_bind,
    getNewMessages_ahead h (validateCallsign_encodable hcallsign) hsince hmax hlimit]
  rfl

/-- The answer to `GET_NEW_BULLETINS` with a cursor that is not ahead of the bulletins. -/
theorem handleGetNewBulletins_ok (h : t.BulletinsConsistent)
    (hcallsign : validateCallsign callsign "authenticated_callsign" = .ok callsign)
    (hpos : 0 ≤ since) (hsince : since ≤ t.bulletinSequence)
    (hlimit : 1 ≤ limit ∧ limit ≤ maxRetrievalLimit) :
    ∃ sent, List.Forall₂ Lists (page bulletinPosition t.bulletins.entries since limit.toNat) sent ∧
      (handleGetNewBulletins ⟨messages, true⟩ callsign ⟨since, limit⟩).run t =
        (.ok (sent.map .bulletinHeader ++ [.end ⟨.getNewBulletins, sent.length,
          cursorAfter bulletinPosition since
            (page bulletinPosition t.bulletins.entries since limit.toNat),
          decide (∃ e ∈ t.bulletins.entries, cursorAfter bulletinPosition since
            (page bulletinPosition t.bulletins.entries since limit.toNat) < bulletinPosition e)⟩]),
          t) := by
  obtain ⟨headers, hheaders, hpage⟩ := getNewBulletins_ok h hpos hsince hlimit
  have hmore := lt_length_page_iff h.ascending since limit.toNat
  refine ⟨headers.map fun header =>
    ⟨header.sequence, header.createdAt, header.author, header.title⟩, ?_, ?_⟩
  · rw [List.forall₂_map_right_iff]
    exact hheaders.imp fun e header hheader => ⟨header, hheader, rfl⟩
  · rw [handleGetNewBulletins, if_neg (by simp), withCallsign_ok hcallsign, run_get_bind, hpage]
    dsimp only
    rw [List.map_map, List.length_map, decide_eq_decide.mpr hmore]
    rfl

/-- The answer to a cursor that is ahead of the bulletins. -/
theorem handleGetNewBulletins_ahead (h : t.BulletinsConsistent)
    (hcallsign : validateCallsign callsign "authenticated_callsign" = .ok callsign)
    (hsince : (t.bulletinSequence : ℤ) < since) (hmax : since ≤ maxU32)
    (hlimit : 1 ≤ limit ∧ limit ≤ maxRetrievalLimit) :
    (handleGetNewBulletins ⟨messages, true⟩ callsign ⟨since, limit⟩).run t =
      (.ok [errorResponse .getNewBulletins .invalidCursor "invalid bulletin cursor"], t) := by
  rw [handleGetNewBulletins, if_neg (by simp), withCallsign_ok hcallsign, run_get_bind,
    getNewBulletins_ahead h hsince hmax hlimit]
  rfl

end Pages

end OpenQSP
