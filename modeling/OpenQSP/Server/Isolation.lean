import OpenQSP.Lib.TwoRuns
import OpenQSP.Lib.Window
import OpenQSP.Server.Frames

/-!
# The isolation of mailboxes

What a user is answered depends on the bulletins and on the user's own mailbox. Everything else in
the database may differ: the messages of other users, how many there are, and the API sequences,
which count all messages. Two databases that agree on what the user may know are
indistinguishable by any frame that does not store a message.

A mailbox without a high-water row has the value zero. The store reports a missing row and a row
that is too low with different texts, but both as the same kind of error, and the user sees only the
kind.

## Main definitions

* `Tables.mailboxRows` — what a mailbox holds, without the API sequences
* `Tables.AgreesFor` — two databases that agree on what a user may know

## Main results

* `dispatch_agrees` — every request but `SEND_MESSAGE`
* **`handleFrame_isolated`** — noninterference, and whose messages are returned
-/

namespace OpenQSP

open Method

/-! ### What a user may know -/

/-- A row of a mailbox as the mailbox queries see it. -/
def MessageRow.withoutApi (row : MessageRow) : MessageRow := { row with apiSequence := 0 }

namespace Tables

/-- The messages of a mailbox under their sequences, without the API sequences. -/
def mailboxRows (t : Tables) (recipient : Str) : Set (ℕ × MessageRow) :=
  {e | ∃ row, ((recipient, e.1), row) ∈ t.messages.entries ∧ row.withoutApi = e.2}

/-- The same bulletins, and the same mailbox of `callsign`. -/
structure AgreesFor (callsign : Str) (t t' : Tables) : Prop where
  bulletins : ∀ e, e ∈ t.bulletins.entries ↔ e ∈ t'.bulletins.entries
  bulletinSequence : t.bulletinSequence = t'.bulletinSequence
  messages : t.mailboxRows callsign = t'.mailboxRows callsign
  highest : t.highest callsign = t'.highest callsign

end Tables

/-- A row as the mailbox queries see it, under its key. -/
def withoutApi (e : (Str × ℕ) × MessageRow) : (Str × ℕ) × MessageRow := (e.1, e.2.withoutApi)

section Listing

open Tables

variable {t t' : Tables} {callsign : Str}

theorem mem_map_withoutApi {e : (Str × ℕ) × MessageRow} :
    e ∈ (t.messages.entries.filter fun e => e.1.1 = callsign).map withoutApi ↔
      e.1.1 = callsign ∧ (e.1.2, e.2) ∈ t.mailboxRows callsign := by
  obtain ⟨⟨recipient, sequence⟩, row⟩ := e
  simp only [List.mem_map, List.mem_filter, decide_eq_true_eq, mailboxRows, Set.mem_ofPred_eq]
  constructor
  · rintro ⟨e, ⟨he, hrecipient⟩, heq⟩
    obtain ⟨hkey, hrow⟩ := Prod.mk.inj heq
    obtain ⟨rfl, rfl⟩ := Prod.mk.inj hkey
    exact ⟨hrecipient, e.2, hrecipient ▸ he, hrow⟩
  · rintro ⟨rfl, row', hrow', rfl⟩
    exact ⟨_, ⟨hrow', rfl⟩, rfl⟩

/-- The same listing without the API sequences is the same mailbox. -/
theorem mailboxRows_eq (h : (t.messages.entries.filter fun e => e.1.1 = callsign).map withoutApi =
    (t'.messages.entries.filter fun e => e.1.1 = callsign).map withoutApi) :
    t.mailboxRows callsign = t'.mailboxRows callsign := by
  ext ⟨sequence, row⟩
  have hmem : ∀ {t : Tables}, (sequence, row) ∈ t.mailboxRows callsign ↔
    ((callsign, sequence), row) ∈
      (t.messages.entries.filter fun e => e.1.1 = callsign).map withoutApi := by
    simp [mem_map_withoutApi]
  rw [hmem, hmem, h]

/-- The mailbox of `callsign`, as the mailbox queries see it. -/
theorem Tables.AgreesFor.mailbox (h : t.AgreesFor callsign t') :
    (t.mailbox callsign).map withoutApi = (t'.mailbox callsign).map withoutApi := by
  have hnodup : ∀ t : Tables, (((t.messages.entries.filter fun e => e.1.1 = callsign).map
      withoutApi).map fun e => e.1.2).Nodup := by
    intro t
    rw [List.map_map]
    refine List.Nodup.map_on ?_ (t.messages.nodup_keys.of_map.filter _)
    intro e he e' he' heq
    simp only [List.mem_filter, decide_eq_true_eq] at he he'
    refine List.inj_on_of_nodup_map t.messages.nodup_keys he.1 he'.1 (Prod.ext ?_ heq)
    exact he.2.trans he'.2.symm
  have hmap : ∀ t : Tables, (t.mailbox callsign).map withoutApi = orderBy (fun e => e.1.2)
      ((t.messages.entries.filter fun e => e.1.1 = callsign).map withoutApi) := by
    intro t
    rw [mailbox_eq_orderBy]
    exact map_orderBy (fun e => e.1.2) (fun e => e.1.2) withoutApi (fun _ => rfl) _
  rw [hmap, hmap, orderBy_eq_of_mem_iff (hnodup t) (hnodup t') fun e => by
    rw [mem_map_withoutApi, mem_map_withoutApi, h.messages]]

/-- The bulletins in the order of their sequences. -/
theorem Tables.AgreesFor.bulletinRows (h : t.AgreesFor callsign t') (since : ℤ) :
    (t.bulletins.entries.filter fun e => since < (e.1 : ℤ)).insertionSort (fun e e' => e.1 ≤ e'.1) =
      (t'.bulletins.entries.filter fun e => since < (e.1 : ℤ)).insertionSort
        fun e e' => e.1 ≤ e'.1 := by
  have hnodup : ∀ t : Tables,
      ((t.bulletins.entries.filter fun e => since < (e.1 : ℤ)).map Prod.fst).Nodup := fun t =>
    t.bulletins.nodup_keys.sublist (List.filter_sublist.map _)
  refine orderBy_eq_of_mem_iff (hnodup t) (hnodup t') fun e => ?_
  rw [List.mem_filter, List.mem_filter, h.bulletins]

end Listing

/-! ### The queries -/

section Queries

open Tables

variable {t t' : Tables} {callsign : Str}

/-- A message without its API sequence. -/
def StoredMessage.withoutApi (message : StoredMessage) : StoredMessage :=
  { message with apiSequence := 0 }

theorem storedMessage_of_withoutApi (e : (Str × ℕ) × MessageRow) :
    storedMessage (withoutApi e) = (storedMessage e).map StoredMessage.withoutApi := by
  simp only [storedMessage, OpenQSP.withoutApi, MessageRow.withoutApi]
  rcases validateStoredU32 e.1.2 "message sequence" false with error | sequence
  · rfl
  rcases validateStoredU32 e.2.createdAt "message created_at" true with error | createdAt
  · rfl
  simp only [Py.ok_bind]
  rcases decodeUtf8 e.2.body with _ | text <;> rfl

/-- A missing high-water row and one that is too low are the same kind of error. -/
theorem mailboxHighest_agrees {state state' : Option ℕ} (maximum : Option ℕ)
    (h : state.getD 0 = state'.getD 0) :
    mailboxHighest state maximum = mailboxHighest state' maximum ∨
      ∃ e e', mailboxHighest state maximum = .error e ∧ mailboxHighest state' maximum = .error e' ∧
        e.cls = .storageIntegrityError ∧ e'.cls = .storageIntegrityError := by
  have hnone : mailboxHighest none maximum = mailboxHighest (some 0) maximum ∨
      ∃ e e', mailboxHighest none maximum = .error e ∧ mailboxHighest (some 0) maximum = .error e' ∧
        e.cls = .storageIntegrityError ∧ e'.cls = .storageIntegrityError := by
    cases maximum with
    | none => exact .inl rfl
    | some maximum =>
      right
      by_cases hrange : 1 ≤ maximum ∧ maximum ≤ maxU32
      · have hpos : 0 < maximum := hrange.1
        simp [mailboxHighest, validateStoredU32, raiseIf, hrange, hpos]
      · simp [mailboxHighest, validateStoredU32, raiseIf, hrange]
  rcases state with _ | value <;> rcases state' with _ | value'
  · exact .inl rfl
  · obtain rfl : 0 = value' := h
    exact hnone
  · obtain rfl : value = 0 := h
    rcases hnone with heq | ⟨e, e', he, he', hcls, hcls'⟩
    · exact .inl heq.symm
    · exact .inr ⟨e', e, he', he, hcls', hcls⟩
  · obtain rfl : value = value' := h
    exact .inl rfl

/-- A page reads a mailbox without its API sequences. -/
theorem getNewMessages_eq (since limit : ℤ) (t : Tables) :
    getNewMessages callsign since limit t = (do
      requireU32 "since" since
      validateRetrievalLimit limit
      let state ← t.mailboxSequence callsign
      let view := (t.mailbox callsign).map withoutApi
      let highest ← mailboxHighest state (view.getLast?.map fun e => e.1.2)
      raiseIf ((highest : ℤ) < since) ⟨.invalidCursorError, "message cursor " ++ toString since ++
        " is ahead of mailbox high-water " ++ toString highest⟩
      let rows := (view.filter fun e => since < (e.1.2 : ℤ)).take (limit.toNat + 1)
      let messages ← (rows.take limit.toNat).mapM storedMessage
      let nextSince := match messages.getLast? with
        | none => since
        | some message => message.sequence
      return ⟨messages, nextSince, decide (limit.toNat < rows.length)⟩) := by
  simp only [getNewMessages, List.getLast?_map, Option.map_map, List.filter_map, ← List.map_take,
    List.mapM_map, List.length_map]
  rfl

/-- Both pages are the same, or both databases report an integrity error. -/
theorem getNewMessages_agrees (h : t.AgreesFor callsign t') (since limit : ℤ) :
    getNewMessages callsign since limit t = getNewMessages callsign since limit t' ∨
      ∃ e e', getNewMessages callsign since limit t = .error e ∧
        getNewMessages callsign since limit t' = .error e' ∧
        e.cls = .storageIntegrityError ∧ e'.cls = .storageIntegrityError := by
  rw [getNewMessages_eq, getNewMessages_eq, h.mailbox]
  rcases requireU32 "since" since with e | _
  · exact .inl rfl
  rcases validateRetrievalLimit limit with e | _
  · exact .inl rfl
  simp only [Py.ok_bind, mailboxSequence]
  rcases hbind : bindText callsign with e | bound
  · exact .inl rfl
  obtain ⟨rfl, -⟩ := bindText_eq_ok.mp hbind
  simp only [Py.ok_bind, Py.pure_eq_ok]
  rcases mailboxHighest_agrees (((t'.mailbox bound).map withoutApi).getLast?.map
    fun e => e.1.2) h.highest with heq | ⟨e, e', he, he', hcls, hcls'⟩
  · rw [heq]
    exact .inl rfl
  · rw [he, he']
    exact .inr ⟨e, e', rfl, rfl, hcls, hcls'⟩

/-- The number of a message of the mailbox. -/
theorem conversationSequence_agrees (h : t.AgreesFor callsign t') {stored : StoredMessage}
    (hrecipient : stored.recipient = callsign) :
    conversationSequence stored t = conversationSequence stored t' := by
  have hcount : ∀ t : Tables, ((t.mailbox callsign).countP fun e =>
      e.2.author = stored.author && e.1.2 ≤ stored.sequence) =
        ((t.mailbox callsign).map withoutApi).countP fun e =>
          e.2.author = stored.author && e.1.2 ≤ stored.sequence := by
    intro t
    rw [List.countP_map]
    rfl
  rw [conversationSequence, conversationSequence, hrecipient]
  rcases hbind : bindText callsign with e | bound
  · rfl
  obtain ⟨rfl, -⟩ := bindText_eq_ok.mp hbind
  rcases hauthor : bindText stored.author with e | author
  · rfl
  obtain ⟨rfl, -⟩ := bindText_eq_ok.mp hauthor
  simp only [Py.ok_bind, hcount, h.mailbox]

theorem messageEvent_agrees (h : t.AgreesFor callsign t') {stored : StoredMessage}
    (hrecipient : stored.recipient = callsign) : messageEvent stored t =
      messageEvent stored t' := by
  rw [messageEvent, messageEvent, conversationSequence_agrees h hrecipient]

/-- The point lookup finds the same message, up to its API sequence. -/
theorem getConversationMessage_agrees (h : t.AgreesFor callsign t') (author : Str) (number : ℤ) :
    (getConversationMessage callsign author number t).map (Option.map StoredMessage.withoutApi) =
      (getConversationMessage callsign author number t').map
        (Option.map StoredMessage.withoutApi) := by
  have hview : ∀ t : Tables, (getConversationMessage callsign author number t).map
      (Option.map StoredMessage.withoutApi) = (do
        requireU32 "conversation_sequence" number
        raiseIf (number = 0) ⟨.valueError, "conversation_sequence must be non-zero"⟩
        let _ ← bindText callsign
        let author ← bindText author
        ((((t.mailbox callsign).map withoutApi).filter
          fun e => e.2.author = author)[(number - 1).toNat]?).elim (pure none) fun row => do
            return some (← storedMessage row)) := by
    intro t
    rw [getConversationMessage]
    rcases requireU32 "conversation_sequence" number with e | _
    · rfl
    rcases raiseIf (number = 0) ⟨.valueError, "conversation_sequence must be non-zero"⟩ with e | _
    · rfl
    simp only [Py.ok_bind]
    rcases hbind : bindText callsign with e | bound
    · rfl
    obtain ⟨rfl, -⟩ := bindText_eq_ok.mp hbind
    rcases bindText author with e | author
    · rfl
    simp only [Py.ok_bind, List.filter_map, List.getElem?_map]
    have hauthor : (fun e : (Str × ℕ) × MessageRow => decide (e.2.author = author)) ∘ withoutApi =
        fun e => decide (e.2.author = author) := rfl
    rw [hauthor]
    rcases ((t.mailbox bound).filter fun e => e.2.author = author)[(number - 1).toNat]? with _ | e
    · rfl
    simp only [Option.map_some, Option.elim_some, storedMessage_of_withoutApi]
    rcases storedMessage e with error | stored <;> rfl
  rw [hview, hview, h.mailbox]

/-- At most one element that satisfies `p` is found, wherever it stands. -/
theorem find?_eq_of_mem_iff {α : Type} {p : α → Bool} {l l' : List α}
    (hunique : ∀ a ∈ l, ∀ b ∈ l, p a → p b → a = b) (hmem : ∀ a, a ∈ l ↔ a ∈ l') :
    l.find? p = l'.find? p := by
  rcases hfind : l.find? p with _ | a
  · rw [eq_comm, List.find?_eq_none]
    intro b hb
    exact List.find?_eq_none.mp hfind b ((hmem b).mpr hb)
  · have ha := List.mem_of_find?_eq_some hfind
    have hpa := List.find?_some hfind
    rcases hfind' : l'.find? p with _ | b
    · exact absurd hpa (List.find?_eq_none.mp hfind' a ((hmem a).mp ha))
    · have hb := (hmem b).mpr (List.mem_of_find?_eq_some hfind')
      rw [hunique a ha b hb hpa (List.find?_some hfind')]

theorem getNewBulletins_agrees (h : t.AgreesFor callsign t') (since limit : ℤ) :
    getNewBulletins since limit t = getNewBulletins since limit t' := by
  simp only [getNewBulletins, h.bulletinSequence, h.bulletinRows]

theorem getBulletin_agrees (h : t.AgreesFor callsign t') (sequence : ℤ) :
    getBulletin sequence t = getBulletin sequence t' := by
  have hfind : (t.bulletins.entries.find? fun e => (e.1 : ℤ) = sequence) =
      t'.bulletins.entries.find? fun e => (e.1 : ℤ) = sequence := by
    refine find?_eq_of_mem_iff (fun e he e' he' hkey hkey' => ?_) h.bulletins
    simp only [decide_eq_true_eq] at hkey hkey'
    exact List.inj_on_of_nodup_map t.bulletins.nodup_keys he he'
      (Int.natCast_inj.mp (hkey.trans hkey'.symm))
  simp only [getBulletin, hfind]

end Queries

/-! ### The handlers -/

section Handlers

open Tables

variable {stores : Stores} {callsign : Str}

theorem withCallsign_agrees {α : Type} {R : Tables → Tables → Prop} {unauthorized : α}
    {handler : Str → Method PyError Tables α} (h : Agrees R (handler callsign) (handler callsign)) :
    Agrees R (withCallsign callsign unauthorized handler)
      (withCallsign callsign unauthorized handler) := by
  rw [withCallsign]
  rcases hvalid : validateCallsign callsign "authenticated_callsign" with e | value
  · exact Agrees.ite (Agrees.pure _) (Agrees.raise _)
  · rw [validateCallsign_eq hvalid]
    exact h

/-- A page holds messages to the user who asked. -/
theorem getNewMessages_recipient {since limit : ℤ} {t : Tables} {page : MessagePage}
    (h : getNewMessages callsign since limit t = .ok page) :
    ∀ stored ∈ page.messages, stored.recipient = callsign := by
  obtain ⟨_, -, h⟩ := Py.bind_eq_ok.mp h
  obtain ⟨_, -, h⟩ := Py.bind_eq_ok.mp h
  obtain ⟨state, -, h⟩ := Py.bind_eq_ok.mp h
  obtain ⟨highest, -, h⟩ := Py.bind_eq_ok.mp h
  obtain ⟨_, -, h⟩ := Py.bind_eq_ok.mp h
  obtain ⟨messages, hmessages, h⟩ := Py.bind_eq_ok.mp h
  obtain rfl := Except.ok.inj h
  intro stored hmem
  obtain ⟨row, hrow, hstored⟩ := Py.exists_of_mem_mapM hmessages hmem
  have hmailbox := (List.mem_filter.mp (List.mem_of_mem_take (List.mem_of_mem_take hrow))).1
  have hfilter := (List.mem_filter.mp ((List.mem_insertionSort _).mp hmailbox)).2
  rw [(storedMessage_eq_ok hstored).2.2.2.1]
  exact of_decide_eq_true hfilter

/-- The point lookup finds a message to the user who asked. -/
theorem getConversationMessage_recipient {author : Str} {number : ℤ} {t : Tables}
    {stored : StoredMessage} (h : getConversationMessage callsign author number t =
      .ok (some stored)) :
    stored.recipient = callsign := by
  obtain ⟨_, -, h⟩ := Py.bind_eq_ok.mp h
  obtain ⟨_, -, h⟩ := Py.bind_eq_ok.mp h
  obtain ⟨recipient, hrecipient, h⟩ := Py.bind_eq_ok.mp h
  obtain ⟨author, -, h⟩ := Py.bind_eq_ok.mp h
  dsimp only at h
  split at h
  · cases h
  · next row hrow =>
    obtain ⟨stored', hstored, h⟩ := Py.bind_eq_ok.mp h
    obtain rfl := Option.some.inj (Except.ok.inj h)
    have hmailbox := (List.mem_filter.mp (List.mem_of_getElem? hrow)).1
    have hfilter := (List.mem_filter.mp ((List.mem_insertionSort _).mp hmailbox)).2
    rw [(storedMessage_eq_ok hstored).2.2.2.1, ← (bindText_eq_ok.mp hrecipient).1]
    exact of_decide_eq_true hfilter

theorem handleGetNewMessages_agrees (request : GetNewMessages) :
    Agrees (AgreesFor callsign) (handleGetNewMessages stores callsign request)
      (handleGetNewMessages stores callsign request) := by
  refine Agrees.ite (Agrees.pure _) (withCallsign_agrees ?_)
  refine Agrees.get_bind fun t t' h => ?_
  rcases getNewMessages_agrees h request.since request.max with heq | ⟨e, e', he, he', hcls, hcls'⟩
  · rw [heq]
    rcases hpage : getNewMessages callsign request.since request.max t' with e | page
    · exact Agrees.ofExcept _
    · have hevents : (page.messages.mapM fun stored => messageEvent stored t) =
          page.messages.mapM fun stored => messageEvent stored t' :=
        Py.mapM_congr fun stored hstored =>
          messageEvent_agrees h (getNewMessages_recipient hpage stored hstored)
      simp only [hevents]
      exact Agrees.bind (Agrees.ofExcept _) fun messages => Agrees.pure _
  · rw [he, he']
    have herror : pageError .getNewMessages "message" e =
      pageError .getNewMessages "message" e' := by
      simp [pageError, PyError.isA, hcls, hcls', ErrorClass.isA, ErrorClass.bases]
    simp only [herror]
    exact Agrees.ofExcept _

theorem handleGetNewBulletins_agrees (request : GetNewBulletins) :
    Agrees (AgreesFor callsign) (handleGetNewBulletins stores callsign request)
      (handleGetNewBulletins stores callsign request) := by
  refine Agrees.ite (Agrees.pure _) (withCallsign_agrees ?_)
  refine Agrees.get_bind fun t t' h => ?_
  rw [getNewBulletins_agrees h]
  rcases getNewBulletins request.since request.max t' with e | page
  · exact Agrees.ofExcept _
  · exact Agrees.pure _

theorem handleGetBulletin_agrees (request : GetBulletin) :
    Agrees (AgreesFor callsign) (handleGetBulletin stores callsign request)
      (handleGetBulletin stores callsign request) := by
  refine Agrees.ite (Agrees.pure _) (withCallsign_agrees ?_)
  refine Agrees.get_bind fun t t' h => ?_
  rw [getBulletin_agrees h]
  rcases getBulletin request.sequence t' with e | _ | bulletin
  · exact Agrees.ite (Agrees.pure _) (Agrees.raise _)
  · exact Agrees.pure _
  · exact Agrees.pure _

theorem handleGetMessage_agrees (request : GetMessage) :
    Agrees (AgreesFor callsign) (handleGetMessage stores callsign request)
      (handleGetMessage stores callsign request) := by
  refine Agrees.ite (Agrees.pure _) (withCallsign_agrees ?_)
  rcases validateCallsign request.peer "peer" with e | peer
  · exact Agrees.ite (Agrees.pure _) (Agrees.raise _)
  refine Agrees.get_bind fun t t' h => ?_
  have hlookup := getConversationMessage_agrees h peer request.conversationSequence
  generalize getConversationMessage callsign peer request.conversationSequence t =
    found at hlookup ⊢
  generalize getConversationMessage callsign peer request.conversationSequence t' =
    found' at hlookup ⊢
  rcases found with e | _ | stored
  all_goals rcases found' with e' | _ | stored'
  all_goals simp only [Except.map, Option.map, reduceCtorEq, Except.ok.injEq, Except.error.injEq,
    Option.some.injEq] at hlookup
  · obtain rfl := hlookup
    exact Agrees.ite (Agrees.pure _) (Agrees.raise _)
  · exact Agrees.pure _
  · simp only [StoredMessage.withoutApi, StoredMessage.mk.injEq] at hlookup
    obtain ⟨hsequence, hcreated, -, hauthor, hrecipient, hbody, -⟩ := hlookup
    simp only [hsequence, hcreated, hauthor, hrecipient, hbody]
    exact Agrees.pure _

/-- Two databases that agree on what a user may know give the same answer to every request of the
user that does not store a message. -/
theorem dispatch_agrees (stores : Stores) (clock : ℤ) {request : ProtocolObject}
    (hsend : ∀ value, request ≠ .sendMessage value) :
    Agrees (AgreesFor callsign) (dispatch stores clock callsign request)
      (dispatch stores clock callsign request) := by
  cases request with
  | sendMessage value => exact absurd rfl (hsend value)
  | getMessage request => exact (handleGetMessage_agrees request).bind fun _ => Agrees.pure _
  | getNewMessages request =>
    exact (handleGetNewMessages_agrees request).bind fun _ => Agrees.pure _
  | getNewBulletins request =>
    exact (handleGetNewBulletins_agrees request).bind fun _ => Agrees.pure _
  | getBulletin request => exact (handleGetBulletin_agrees request).bind fun _ => Agrees.pure _
  | _ => exact Agrees.pure _

end Handlers

/-! ### Frames -/

section Frames

open Tables

variable {ω : Type} {listeners : List (Listener ω)} {clock : ℤ} {callsign : Str}

theorem Node.dispatch_agrees (listeners : List (Listener ω)) (clock : ℤ) {request : ProtocolObject}
    (hsend : ∀ value, request ≠ .sendMessage value)
    {node node' : Node ω} (h : AgreesFor callsign node.tables node'.tables) :
    ((Node.dispatch listeners clock callsign request).run node).1 =
      ((Node.dispatch listeners clock callsign request).run node').1 := by
  have houtcome := (OpenQSP.dispatch_agrees ⟨true, true⟩ clock hsend _ _ h).1
  rw [Node.run_dispatch, Node.run_dispatch]
  rcases hrun : (OpenQSP.dispatch ⟨true, true⟩ clock callsign request).run node.tables with
    ⟨e | ⟨responses, events⟩, t⟩
  all_goals
    rcases hrun' : (OpenQSP.dispatch ⟨true, true⟩ clock callsign request).run node'.tables with
      ⟨e' | ⟨responses', events'⟩, t'⟩
  all_goals rw [hrun, hrun'] at houtcome
  · rw [Except.error.inj houtcome]
  · cases houtcome
  · cases houtcome
  · rw [(Prod.mk.inj (Except.ok.inj houtcome)).1]

/-- Every message among the responses is one to `callsign`. -/
def AddressedTo (callsign : Str) (responses : List ProtocolObject) : Prop :=
  ∀ message, .message message ∈ responses → message.recipient = callsign

theorem addressedTo_error (error : Error) : AddressedTo callsign [.error error] := by
  intro message hmem
  simp at hmem

theorem Reads.withCallsign_self {P : List ProtocolObject → Prop}
    {unauthorized : List ProtocolObject}
    {handler : Str → Method PyError Tables (List ProtocolObject)} (hu : P unauthorized)
    (h : Reads P (handler callsign)) :
    Reads P (OpenQSP.withCallsign callsign unauthorized handler) := by
  rw [OpenQSP.withCallsign]
  rcases hvalid : validateCallsign callsign "authenticated_callsign" with e | value
  · exact Reads.ite (Reads.pure hu) (Reads.raise _)
  · rw [validateCallsign_eq hvalid]
    exact h

theorem handleGetNewMessages_addressedTo {stores : Stores} (request : GetNewMessages) :
    Reads (AddressedTo callsign) (handleGetNewMessages stores callsign request) := by
  refine Reads.ite (Reads.pure (addressedTo_error _))
    (Reads.withCallsign_self (addressedTo_error _) ?_)
  refine Reads.get_bind fun t => ?_
  split
  · refine Reads.ofExcept fun responses h => ?_
    obtain ⟨code, detail, rfl⟩ := pageError_eq_ok h
    exact addressedTo_error _
  · next page hpage =>
    rcases hevents : page.messages.mapM (fun stored => messageEvent stored t) with e | messages
    · exact fun _ => ⟨rfl, nofun⟩
    refine Reads.pure fun message hmem => ?_
    simp only [List.mem_append, List.mem_map, ProtocolObject.message.injEq, exists_eq_right,
      List.mem_singleton, reduceCtorEq, or_false] at hmem
    obtain ⟨stored, hstored, hevent⟩ := Py.exists_of_mem_mapM hevents hmem
    obtain ⟨_, -, hmessage⟩ := Py.bind_eq_ok.mp hevent
    rw [← Except.ok.inj hmessage]
    exact getNewMessages_recipient hpage stored hstored

theorem handleGetMessage_addressedTo {stores : Stores} (request : GetMessage) :
    Reads (AddressedTo callsign) (handleGetMessage stores callsign request) := by
  refine Reads.ite (Reads.pure (addressedTo_error _))
    (Reads.withCallsign_self (addressedTo_error _) ?_)
  split
  · exact Reads.ite (Reads.pure (addressedTo_error _)) (Reads.raise _)
  refine Reads.get_bind fun t => ?_
  split
  · exact Reads.ite (Reads.pure (addressedTo_error _)) (Reads.raise _)
  · exact Reads.pure (addressedTo_error _)
  · next stored hstored =>
    refine Reads.pure fun message hmem => ?_
    obtain rfl := ProtocolObject.message.inj (List.mem_singleton.mp hmem)
    exact getConversationMessage_recipient hstored

/-- An answer holds messages to the user who asked. -/
theorem dispatch_addressedTo {stores : Stores} {request : ProtocolObject} {t t' : Tables}
    {responses : List ProtocolObject} {events : List Message}
    (h : (dispatch stores clock callsign request).run t = (.ok (responses, events), t')) :
    AddressedTo callsign responses := by
  have hquiet : ∀ {m : Method PyError Tables (List ProtocolObject)},
    Reads (AddressedTo callsign) m →
      (m >>= fun responses => pure (responses, ([] : List Message))).run t =
        (.ok (responses, events), t') → AddressedTo callsign responses := by
    intro m hm hrun
    rw [run_bind_pure] at hrun
    rcases hres : (m.run t).1 with e | responses'
    · rw [hres] at hrun
      cases hrun
    · rw [hres] at hrun
      obtain ⟨rfl, -⟩ := Prod.mk.inj (Except.ok.inj (Prod.mk.inj hrun).1)
      exact (hm t).2 _ hres
  intro message hmem
  cases (dispatch_cases h).1 with
  | message request value => exact hquiet (handleGetMessage_addressedTo request) h message hmem
  | messages request messages count nextSince hasMore =>
    exact hquiet (handleGetNewMessages_addressedTo request) h message hmem
  | _ => simp at hmem

/-- **Mailbox isolation.** Two nodes whose databases agree on the bulletins and on the mailbox of a
user answer every frame of the user that does not store a message with the same frames, or raise the
same exception. And whatever a user is answered, on any node, the messages in it are the user's. -/
theorem handleFrame_isolated (listeners : List (Listener ω)) (clock : ℤ) (callsign : Str)
    (frame : Bytes) :
    ((∀ value, decodeFrame frame ≠ .ok (.sendMessage value)) →
      ∀ node node' : Node ω, AgreesFor callsign node.tables node'.tables →
        ((Node.handleFrame listeners clock callsign frame).run node).1 =
          ((Node.handleFrame listeners clock callsign frame).run node').1) ∧
    ∀ (node : Node ω) frames,
      ((Node.handleFrame listeners clock callsign frame).run node).1 = .ok frames →
      ∀ data ∈ frames, ∀ message, decodeFrame data = .ok (.message message) →
        message.recipient = callsign := by
  constructor
  · intro hsend node node' h
    rw [Node.handleFrame, OpenQSP.handleFrame]
    rcases hdecode : decodeFrame frame with e | request
    · dsimp only
      split
      · split
        · rfl
        · next response _ =>
          rcases encodeFrame (.error response) false with e | data <;> rfl
      · rfl
    · have hrequest : ∀ value, request ≠ .sendMessage value :=
        fun value hvalue => hsend value (hvalue ▸ hdecode)
      have hrun := Node.dispatch_agrees listeners clock hrequest h
      dsimp only
      rw [run_bind, run_bind]
      rcases hnode : (Node.dispatch listeners clock callsign request).run node with
        ⟨e | responses, _⟩
      all_goals rcases hnode' : (Node.dispatch listeners clock callsign request).run node' with
        ⟨e' | responses', _⟩
      all_goals rw [hnode, hnode'] at hrun
      · rw [Except.error.inj hrun]
      · cases hrun
      · cases hrun
      · dsimp only
        rw [Except.ok.inj hrun, run_ofExcept, run_ofExcept]
  · intro node frames hrun data hdata message hmessage
    rcases handleFrame_eq_ok hrun with ⟨request, responses, -, hdispatch, hframes⟩ | ⟨-, errors,
      hframes⟩
    · obtain ⟨response, hmem, hresponse⟩ := decodeFrame_of_mem_responses hframes hdata
      obtain rfl := Except.ok.inj (hresponse.symm.trans hmessage)
      rw [Node.run_dispatch] at hdispatch
      split at hdispatch
      · cases hdispatch
      · next hrun' =>
        obtain rfl := Except.ok.inj (Prod.mk.inj hdispatch).1
        exact dispatch_addressedTo hrun' message hmem
    · obtain ⟨response, hmem, hresponse⟩ := decodeFrame_of_mem_responses hframes hdata
      obtain rfl := Except.ok.inj (hresponse.symm.trans hmessage)
      simp at hmem

end Frames

/-- A message to another user, which raises the API sequence of the next one. -/
def strangersMessage : DatabaseCall :=
  .message (.storeMessage 1700000000 (str "EA1ABC") (str "N0CALL") (str "QRT") 1700000000 [])

/-- A message to `K1XYZ`. -/
def ownMessage : DatabaseCall :=
  .message (.storeMessage 1700000000 (str "EA1ABC") (str "K1XYZ") (str "73") 1700000000 [])

/-- Reading the mailbox of `K1XYZ` does not tell whether `N0CALL` has mail. -/
theorem handleFrame_isolated_stranger :
    ((Node.handleFrame [] 0 (str "K1XYZ") [1, 2, 0, 5, 0, 0, 0, 0, 20]).run
        (⟨databaseState [ownMessage], (), []⟩ : Node Unit)).1 =
      ((Node.handleFrame [] 0 (str "K1XYZ") [1, 2, 0, 5, 0, 0, 0, 0, 20]).run
        (⟨databaseState [strangersMessage, ownMessage], (), []⟩ : Node Unit)).1 := by
  have hframe : decodeFrame [1, 2, 0, 5, 0, 0, 0, 0, 20] = .ok (.getNewMessages ⟨0, 20⟩) := by
    decide +kernel
  refine (handleFrame_isolated [] 0 (str "K1XYZ") _).1 (fun value h => ?_) _ _ ?_
  · cases hframe.symm.trans h
  · have hbulletins : (databaseState [ownMessage]).bulletins.entries =
        (databaseState [strangersMessage, ownMessage]).bulletins.entries := by decide +kernel
    exact ⟨fun e => by rw [hbulletins], by decide +kernel, mailboxRows_eq (by decide +kernel),
      by decide +kernel⟩

end OpenQSP
