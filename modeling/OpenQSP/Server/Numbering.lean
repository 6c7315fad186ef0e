import OpenQSP.Server.Pages

/-!
# One number for a message

A message is sent to its recipient on three ways: it is announced when it is created, it is in the
pages of the mailbox, and it can be asked for by its number. The number is counted anew each time,
in a transaction of its own, while messages go on being stored. All three ways give the same
`MESSAGE`.

## Main definitions

* `StoredMessage.toMessage` — a message under a number
* `Tables.Numbered` — every way to a message gives it the same number

## Main results

* `Tables.Sound.numbered`, `Tables.Sound.numbered_later` — a message that is there has a number
* `SendCall.accept_numbered` — the number in the announcement of a new message
* **`conversationNumbers_stable`** — numbers in every reachable database, and in all later ones
-/

namespace OpenQSP

open Method

/-- The `MESSAGE` of a stored message under a number. -/
def StoredMessage.toMessage (stored : StoredMessage) (number : ℕ) : Message :=
  ⟨stored.sequence, number, stored.createdAt, stored.author, stored.recipient, stored.body⟩

/-- The message has this number, and is found under it; what is announced of it, what the pages of
its mailbox show of it, and what a point lookup returns, is its `MESSAGE` under this number. -/
structure Tables.Numbered (t : Tables) (stored : StoredMessage) (number : ℕ) : Prop where
  counted : conversationSequence stored t = .ok number
  found : getConversationMessage stored.recipient stored.author number t = .ok (some stored)
  announced : messageEvent stored t = .ok (stored.toMessage number)
  paged : validateCallsign stored.recipient "authenticated_callsign" = .ok stored.recipient →
    ∀ since limit : ℤ, 0 ≤ since → since ≤ maxU32 → 1 ≤ limit ∧ limit ≤ maxRetrievalLimit →
      ∃ responses, (handleGetNewMessages ⟨true, true⟩ stored.recipient ⟨since, limit⟩).run t =
          (.ok responses, t) ∧
        ∀ message, .message message ∈ responses → message.sequence = (stored.sequence : ℤ) →
          message = stored.toMessage number
  lookedUp : validateCallsign stored.recipient "authenticated_callsign" = .ok stored.recipient →
    validateCallsign stored.author "peer" = .ok stored.author →
      (handleGetMessage ⟨true, true⟩ stored.recipient ⟨stored.author, number⟩).run t =
        (.ok [.message (stored.toMessage number)], t)

section Numbering

open Tables

variable {t t' : Tables}

/-- The page of a mailbox shows a message as it is announced. -/
theorem Tables.Consistent.paged (h : t.Consistent) {e : (Str × ℕ) × MessageRow}
    (he : e ∈ t.messages.entries) {stored : StoredMessage} (hstored : storedMessage e = .ok stored)
    {announced : Message} (hannounced : messageEvent stored t = .ok announced)
    (hcallsign : validateCallsign stored.recipient "authenticated_callsign" = .ok stored.recipient)
    {since limit : ℤ} (hpos : 0 ≤ since) (hmax : since ≤ maxU32)
    (hlimit : 1 ≤ limit ∧ limit ≤ maxRetrievalLimit) :
    ∃ responses, (handleGetNewMessages ⟨true, true⟩ stored.recipient ⟨since, limit⟩).run t =
        (.ok responses, t) ∧
      ∀ message, .message message ∈ responses → message.sequence = (stored.sequence : ℤ) →
        message = announced := by
  rcases le_or_gt since (t.highest stored.recipient : ℤ) with hle | hgt
  · obtain ⟨sent, hsent, hrun⟩ := handleGetNewMessages_ok true h hcallsign hpos hle hlimit
    refine ⟨_, hrun, fun message hmem hsequence => ?_⟩
    rcases List.mem_append.mp hmem with hmem | hmem
    · obtain ⟨message', hmem', heq⟩ := List.mem_map.mp hmem
      obtain rfl := ProtocolObject.message.inj heq
      obtain ⟨row, hrow, hdelivers⟩ := Py.exists_of_mem_forall₂ hsent hmem'
      obtain ⟨hentry, hrecipient⟩ := h.mem_mailbox.mp (page_subset_beyond hrow).1
      -- The row has the key of the message.
      obtain ⟨-, -, hs, hr, -, -⟩ := storedMessage_eq_ok hstored
      have hkey : row.1 = e.1 := by
        have hrowSequence := hdelivers.sequence
        rw [hsequence, hs, Int.natCast_inj] at hrowSequence
        exact Prod.ext (hrecipient.trans hr) hrowSequence.symm
      obtain rfl : row = e := OrderedDict.eq_of_fst_eq hentry he hkey
      exact hdelivers.unique ⟨stored, hstored, hannounced⟩
    · exact absurd (List.mem_singleton.mp hmem) nofun
  · refine ⟨_, handleGetNewMessages_ahead true h hcallsign hgt hmax hlimit, fun message hmem => ?_⟩
    exact absurd (List.mem_singleton.mp hmem) nofun

/-- The answer to a point lookup that finds a message. -/
theorem handleGetMessage_found (bulletins : Bool) {callsign peer : Str} {k : ℤ}
    {stored : StoredMessage}
    (hcallsign : validateCallsign callsign "authenticated_callsign" = .ok callsign)
    (hpeer : validateCallsign peer "peer" = .ok peer)
    (hfound : getConversationMessage callsign peer k t = .ok (some stored)) :
    (handleGetMessage ⟨true, bulletins⟩ callsign ⟨peer, k⟩).run t =
      (.ok [.message ⟨stored.sequence, k,
      stored.createdAt, stored.author, stored.recipient, stored.body⟩], t) := by
  rw [handleGetMessage, if_neg (by simp), withCallsign_ok hcallsign]
  simp only [hpeer]
  rw [run_get_bind, hfound]
  rfl

/-- A message that is there has a number. -/
theorem Tables.Sound.numbered (h : t.Sound) {e : (Str × ℕ) × MessageRow}
    (he : e ∈ t.messages.entries) {stored : StoredMessage}
      (hstored : storedMessage e = .ok stored) :
    ∃ number, t.Numbered stored number := by
  obtain ⟨i, hi, hcount, -⟩ :=
    conversationSequence_grows (Grows.refl t) h.messages h.messages he hstored
  obtain ⟨hilt, hget⟩ := List.getElem?_eq_some_iff.mp hi
  have hfound := getConversationMessage_getElem h.messages hilt (hget ▸ hstored)
  have hannounced : messageEvent stored t = .ok (stored.toMessage (i + 1)) := by
    rw [messageEvent, hcount]
    rfl
  refine ⟨i + 1, hcount, hfound, hannounced, ?_, ?_⟩
  · intro hcallsign since limit hpos hmax hlimit
    exact h.messages.paged he hstored hannounced hcallsign hpos hmax hlimit
  · intro hcallsign hpeer
    exact handleGetMessage_found true hcallsign hpeer hfound

/-- A message keeps its number in all that follows. -/
theorem Tables.Sound.numbered_later (h : t.Sound) {e : (Str × ℕ) × MessageRow}
    (he : e ∈ t.messages.entries) {stored : StoredMessage}
      (hstored : storedMessage e = .ok stored) :
    ∃ number, t.Numbered stored number ∧
      ∀ later : List DatabaseCall, (later.foldl DatabaseCall.next t).Numbered stored number := by
  obtain ⟨number, hnumbered⟩ := h.numbered he hstored
  refine ⟨number, hnumbered, fun later => ?_⟩
  obtain ⟨h', hgrows⟩ := foldl_next h later
  obtain ⟨number', hnumbered'⟩ := h'.numbered (hgrows.messages.subset he) hstored
  obtain ⟨i, -, hcount, -, hcount'⟩ :=
    conversationSequence_grows hgrows h.messages h'.messages he hstored
  obtain rfl : number = i + 1 := Except.ok.inj (hnumbered.counted.symm.trans hcount)
  obtain rfl : number' = i + 1 := Except.ok.inj (hnumbered'.counted.symm.trans hcount')
  exact hnumbered'

/-- The event of a call is computed from the tables that it leaves. -/
theorem SendCall.accept_event {call : SendCall} {acceptance : MessageAcceptance} {event : Message}
    (hrun : call.accept.run t = (.ok (acceptance, some event), t')) :
    messageEvent acceptance.message t' = .ok event := by
  rw [SendCall.accept, acceptMessage] at hrun
  rcases hvalid : validateSend call.author call.recipient call.body call.createdAt with e | _
  · rw [hvalid] at hrun
    cases hrun
  rw [hvalid, run_ofExcept_ok_bind, run_bind] at hrun
  rcases hstore : (storeAccepted call.author call.recipient call.body call.createdAt
      call.idempotencyKey call.requestHash call.clock).run t with ⟨e | accepted, t₁⟩
  · rw [hstore] at hrun
    cases hrun
  rw [hstore] at hrun
  dsimp only at hrun
  split at hrun
  · rw [run_get_bind] at hrun
    rcases hevent : messageEvent accepted.message t₁ with e | event'
    · rw [hevent] at hrun
      cases hrun
    · rw [hevent] at hrun
      cases hrun
      exact hevent
  · cases hrun

/-- The announcement of a new message carries the number that the message keeps. -/
theorem SendCall.accept_numbered (h : t.Sound) {call : SendCall} {acceptance : MessageAcceptance}
    {event : Message} (hrun : call.accept.run t = (.ok (acceptance, some event), t')) :
    ∃ number, event = acceptance.message.toMessage number ∧
      ∀ later : List DatabaseCall,
        (later.foldl DatabaseCall.next t').Numbered acceptance.message number := by
  obtain ⟨-, hok⟩ := call.accept_spec h.messages
  rw [hrun] at hok
  obtain ⟨houtcome, hnone, hsome⟩ := hok _ rfl
  have h' : t'.Sound := houtcome.sound h
  dsimp only at houtcome hnone hsome
  rcases hcreated : acceptance.created with _ | _
  · exact absurd (hnone hcreated) nofun
  · rw [hcreated] at houtcome
    obtain ⟨⟨e, he, -, hstored⟩, -⟩ := houtcome.stored
    obtain ⟨number, hnumbered, hlater⟩ := h'.numbered_later he hstored
    exact ⟨number, Except.ok.inj ((SendCall.accept_event hrun).symm.trans hnumbered.announced),
      hlater⟩

/-- **Numbers are stable.** In every reachable database the messages of a conversation are numbered
`1, 2, 3, …` in mailbox order, and no message is found exactly under the numbers that are not given.
A message has one number in this database and in all later ones, and every way to the message gives
it that number; the announcement that was made when it was created gave it too. -/
theorem conversationNumbers_stable (calls : List DatabaseCall) :
    (∀ recipient author i, ∀ hi : i < ((databaseState calls).conversation recipient author).length,
      ∃ message,
        storedMessage ((databaseState calls).conversation recipient author)[i] = .ok message ∧
          conversationSequence message (databaseState calls) = .ok (i + 1)) ∧
    (∀ recipient author, (encodeUtf8 recipient).isSome → (encodeUtf8 author).isSome →
      ∀ k : ℕ, 1 ≤ k → k ≤ maxU32 →
        (getConversationMessage recipient author k (databaseState calls) = .ok none ↔
          ((databaseState calls).conversation recipient author).length < k)) ∧
    (∀ e ∈ (databaseState calls).messages.entries, ∃ message number, storedMessage e = .ok message ∧
      ∀ later : List DatabaseCall,
        (later.foldl DatabaseCall.next (databaseState calls)).Numbered message number) ∧
    ∀ (call : SendCall) acceptance event created,
      call.accept.run (databaseState calls) = (.ok (acceptance, some event), created) →
        ∃ number, event = acceptance.message.toMessage number ∧
          ∀ later : List DatabaseCall,
            (later.foldl DatabaseCall.next created).Numbered acceptance.message number := by
  have h := sound_databaseState calls
  refine ⟨fun recipient author i hi => ?_,
    fun recipient author hrecipient hauthor k hpos hmax => ?_, fun e he => ?_, fun call acceptance event created hrun => ?_⟩
  · obtain ⟨message, hmessage⟩ :=
      h.messages.readable _ (h.messages.mem_conversation.mp (List.getElem_mem hi)).1
    exact ⟨message, hmessage, conversationSequence_getElem h.messages hi hmessage⟩
  · exact getConversationMessage_eq_none h.messages hrecipient hauthor hpos hmax
  · obtain ⟨message, hmessage⟩ := h.messages.readable e he
    obtain ⟨number, -, hlater⟩ := h.numbered_later he hmessage
    exact ⟨message, number, hmessage, hlater⟩
  · exact SendCall.accept_numbered h hrun

end Numbering

end OpenQSP
