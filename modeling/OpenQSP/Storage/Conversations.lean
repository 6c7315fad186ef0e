import OpenQSP.Storage.Logs

/-!
# The numbering of conversations

A conversation is the part of a mailbox that one author wrote. Its messages are numbered by counting
those up to a message, in one query, and a message is found by skipping as many, in another. In
sound tables the two agree: message `i` of a conversation, counted from zero, has number `i + 1`,
and is the one that is found under it. A conversation only grows behind its last message, so that a
number is never given to another message.

## Main definitions

* `Tables.conversation`

## Main results

* `conversationSequence_getElem`, `getConversationMessage_getElem` — both queries, by index
* `getConversationMessage_eq_none` — the numbers that are not given
* `Tables.Grows.conversation`, `conversationSequence_grows` — later messages
-/

namespace OpenQSP

/-- The messages of an author to a recipient, in mailbox order. -/
def Tables.conversation (t : Tables) (recipient author : Str) : List ((Str × ℕ) × MessageRow) :=
  (t.mailbox recipient).filter fun e => e.2.author = author

namespace Tables

variable {t t' : Tables} {recipient author : Str}

theorem Consistent.mem_conversation (h : t.Consistent) {e : (Str × ℕ) × MessageRow} :
    e ∈ t.conversation recipient author ↔
      e ∈ t.messages.entries ∧ e.1.1 = recipient ∧ e.2.author = author := by
  rw [conversation, List.mem_filter, h.mem_mailbox, decide_eq_true_eq, and_assoc]

theorem Consistent.ascending_conversation (h : t.Consistent) (recipient author : Str) :
    Ascending mailboxPosition (t.conversation recipient author) :=
  (h.ascending_mailbox recipient).sublist List.filter_sublist

theorem Consistent.length_conversation_le (h : t.Consistent) (recipient author : Str) :
    (t.conversation recipient author).length ≤ maxU32 :=
  (List.length_filter_le _ _).trans
    ((h.contiguous_mailbox recipient).length_eq.le.trans (h.highest_le recipient))

/-- A conversation grows behind the high-water value of the mailbox. -/
theorem Grows.conversation (hgrows : t.Grows t') (h : t.Consistent) (h' : t'.Consistent)
    (recipient author : Str) : ∃ later,
      t'.conversation recipient author = t.conversation recipient author ++ later ∧
      ∀ e ∈ later, (t.highest recipient : ℤ) < mailboxPosition e := by
  obtain ⟨rest, hmailbox, hlater⟩ := hgrows.mailbox h h' recipient
  refine ⟨rest.filter fun e => e.2.author = author, ?_, fun e he => ?_⟩
  · rw [Tables.conversation, Tables.conversation, hmailbox, List.filter_append]
  · exact hlater e (List.mem_filter.mp he).1

end Tables

section Numbering

open Tables

variable {t t' : Tables} {recipient author : Str}

/-- What is known of a message that is decoded from a row of a conversation. -/
theorem storedMessage_conversation (h : t.Consistent) {e : (Str × ℕ) × MessageRow}
    (he : e ∈ t.conversation recipient author) {message : StoredMessage}
    (hmessage : storedMessage e = .ok message) :
    message.sequence = e.1.2 ∧ message.recipient = recipient ∧ message.author = author ∧
      (encodeUtf8 recipient).isSome ∧ (encodeUtf8 author).isSome := by
  obtain ⟨hmem, hrecipient, hauthor⟩ := h.mem_conversation.mp he
  obtain ⟨-, -, hsequence, hr, ha, -⟩ := storedMessage_eq_ok hmessage
  exact ⟨hsequence, hr.trans hrecipient, ha.trans hauthor,
    hrecipient ▸ h.recipients_encodable e hmem,
    hauthor ▸ h.authors_encodable e hmem⟩

/-- Counting gives message `i` the number `i + 1`. -/
theorem conversationSequence_getElem (h : t.Consistent) {i : ℕ}
    (hi : i < (t.conversation recipient author).length) {message : StoredMessage}
    (hmessage : storedMessage (t.conversation recipient author)[i] = .ok message) :
    conversationSequence message t = .ok (i + 1) := by
  obtain ⟨hsequence, rfl, rfl, hrecipient, hauthor⟩ :=
    storedMessage_conversation h (List.getElem_mem hi) hmessage
  have hcount : (t.mailbox message.recipient).countP (fun e =>
      e.2.author = message.author && e.1.2 ≤ message.sequence) = i + 1 := by
    calc (t.mailbox message.recipient).countP (fun e =>
          e.2.author = message.author && e.1.2 ≤ message.sequence)
      _ = (t.conversation message.recipient message.author).countP
          (fun e => e.1.2 ≤ message.sequence) := by
        rw [conversation, List.countP_filter]
        exact List.countP_congr fun e _ => by rw [Bool.and_comm]
      _ = (t.conversation message.recipient message.author).countP (fun e => mailboxPosition e ≤
          mailboxPosition (t.conversation message.recipient message.author)[i]) :=
        List.countP_congr fun e _ => by
          rw [hsequence, decide_eq_true_eq, decide_eq_true_eq]
          exact Int.ofNat_le.symm
      _ = i + 1 := countP_le_getElem (h.ascending_conversation _ _) hi
  have hle := h.length_conversation_le message.recipient message.author
  simp only [conversationSequence, bindText_of_isSome hrecipient, bindText_of_isSome hauthor,
    Py.ok_bind, hcount]
  rw [raiseIf_of_not (by omega)]
  rfl

theorem requireU32_of_le {value : ℤ} (name : String) (hmin : 0 ≤ value) (hmax : value ≤ maxU32) :
    requireU32 name value = .ok () := raiseIf_of_not (not_not.mpr ⟨hmin, hmax⟩) _

/-- The query by number, for a number that may be asked for. -/
theorem getConversationMessage_eq (hrecipient : (encodeUtf8 recipient).isSome)
    (hauthor : (encodeUtf8 author).isSome) {k : ℕ} (hpos : 1 ≤ k) (hmax : k ≤ maxU32) :
    getConversationMessage recipient author k t =
      match (t.conversation recipient author)[k - 1]? with
      | none => .ok none
      | some row => do return some (← storedMessage row) := by
  have hindex : ((k : ℤ) - 1).toNat = k - 1 := by omega
  have hle : (k : ℤ) ≤ maxU32 := by exact_mod_cast hmax
  rw [getConversationMessage, requireU32_of_le _ (by omega) hle, Py.ok_bind,
    raiseIf_of_not (by omega), Py.ok_bind, bindText_of_isSome hrecipient, Py.ok_bind,
    bindText_of_isSome hauthor, Py.ok_bind, hindex]
  rfl

/-- Skipping finds message `i` under the number `i + 1`. -/
theorem getConversationMessage_getElem (h : t.Consistent) {i : ℕ}
    (hi : i < (t.conversation recipient author).length) {message : StoredMessage}
    (hmessage : storedMessage (t.conversation recipient author)[i] = .ok message) :
    getConversationMessage recipient author (i + 1 : ℕ) t = .ok (some message) := by
  obtain ⟨-, -, -, hrecipient, hauthor⟩ :=
    storedMessage_conversation h (List.getElem_mem hi) hmessage
  have hle := h.length_conversation_le recipient author
  rw [getConversationMessage_eq hrecipient hauthor (Nat.le_add_left 1 i) (by omega),
    Nat.add_sub_cancel, List.getElem?_eq_getElem hi]
  simp only [hmessage]
  rfl

/-- No message is found exactly under the numbers beyond the length of the conversation. -/
theorem getConversationMessage_eq_none (h : t.Consistent)
    (hrecipient : (encodeUtf8 recipient).isSome) (hauthor : (encodeUtf8 author).isSome) {k : ℕ}
    (hpos : 1 ≤ k) (hmax : k ≤ maxU32) :
    getConversationMessage recipient author k t = .ok none ↔
      (t.conversation recipient author).length < k := by
  rw [getConversationMessage_eq hrecipient hauthor hpos hmax]
  rcases Nat.lt_or_ge (k - 1) (t.conversation recipient author).length with hlt | hge
  · rw [List.getElem?_eq_getElem hlt]
    obtain ⟨message, hmessage⟩ :=
      h.readable _ (h.mem_conversation.mp (List.getElem_mem hlt)).1
    simp only [hmessage]
    exact iff_of_false nofun (by omega)
  · rw [List.getElem?_eq_none hge]
    exact iff_of_true rfl (by omega)

/-- Later messages do not change the number of a message. -/
theorem conversationSequence_grows (hgrows : t.Grows t') (h : t.Consistent) (h' : t'.Consistent)
    {e : (Str × ℕ) × MessageRow} (he : e ∈ t.messages.entries) {message : StoredMessage}
    (hmessage : storedMessage e = .ok message) :
    ∃ i : ℕ, (t.conversation message.recipient message.author)[i]? = some e ∧
      conversationSequence message t = .ok (i + 1) ∧
      (t'.conversation message.recipient message.author)[i]? = some e ∧
      conversationSequence message t' = .ok (i + 1) := by
  obtain ⟨-, -, -, hrecipient, hauthor, -⟩ := storedMessage_eq_ok hmessage
  obtain ⟨i, hi, hget⟩ := List.getElem_of_mem
    (h.mem_conversation.mpr ⟨he, hrecipient.symm, hauthor.symm⟩)
  obtain ⟨later, happend, -⟩ := hgrows.conversation h h' message.recipient message.author
  have hi' : i < (t'.conversation message.recipient message.author).length := by
    rw [happend, List.length_append]
    exact Nat.lt_add_right _ hi
  have hget' : (t'.conversation message.recipient message.author)[i] = e := by
    rw [← hget]
    simp only [happend]
    exact List.getElem_append_left hi
  refine ⟨i, List.getElem?_eq_some_iff.mpr ⟨hi, hget⟩, ?_,
    List.getElem?_eq_some_iff.mpr ⟨hi', hget'⟩,
    ?_⟩
  · exact conversationSequence_getElem h hi (hget ▸ hmessage)
  · exact conversationSequence_getElem h' hi' (hget' ▸ hmessage)

end Numbering

end OpenQSP
