import OpenQSP.Storage.Logs

/-!
# Counters ahead of the rows

The tables of a new database list the messages of a mailbox in the order in which they were stored.
Tables that come out of a migration need not, but their counters are ahead of their rows, and that
is all the stores rely on: a call leaves the messages alone or accepts one, and the accepted one is
beyond every other message of its mailbox and beyond every other message of the node.

## Main definitions

* `Tables.Counted` — the counters are ahead of the rows, and messages can be read back
* `Tables.AcceptsOne` — one more message

## Main results

* `Tables.Consistent.counted` — the tables of a new database are among these
* `RowsKept.highest_lt` — a new message is ahead of its mailbox
* `DatabaseCall.next_cases` — what a call does to the messages
* `DatabaseCall.next_rows` — and where it puts the one that it accepts
-/

namespace OpenQSP

open Session Tables

/-- `t'` is `t` with one more message, and perhaps one more key, which refers to a message. -/
def Tables.AcceptsOne (t t' : Tables) : Prop :=
  ∃ createdAt author recipient body t₁ message apiIdempotency,
    Accepts t createdAt author recipient body t₁ message ∧ t' = { t₁ with apiIdempotency } ∧
      ∀ e ∈ apiIdempotency.entries, e ∈ t.apiIdempotency.entries ∨
        (e.2.recipient, e.2.mailboxSequence) ∈ t₁.messages.keys

theorem Accepts.apiIdempotency_eq {t t' : Tables} {createdAt : ℤ} {author recipient body : Str}
    {message : StoredMessage} (h : Accepts t createdAt author recipient body t' message) :
    t'.apiIdempotency = t.apiIdempotency := by
  obtain ⟨data, -, rfl⟩ := h.tables_eq
  rfl

/-- A call that stores a message finds the key and does nothing, or accepts the message. -/
theorem KeyedOutcome.accepted {t t' : Tables} {createdAt : ℤ}
    {author recipient body requestHash : Str}
    {idempotencyKey : Option Str} {result : StoredMessage × Bool}
    (h : KeyedOutcome t createdAt author recipient body requestHash idempotencyKey result t') :
    (result.2 = false ∧ t' = t) ∨ (result.2 = true ∧ ∃ t₁ apiIdempotency,
      Accepts t createdAt author recipient body t₁ result.1 ∧ t' = { t₁ with apiIdempotency } ∧
        ∀ e ∈ apiIdempotency.entries, e ∈ t.apiIdempotency.entries ∨
          (e.2.recipient, e.2.mailboxSequence) ∈ t₁.messages.keys) := by
  cases h with
  | @unkeyed message t' accepts =>
    refine .inr ⟨rfl, t', t'.apiIdempotency, accepts, rfl, ?_⟩
    rw [accepts.apiIdempotency_eq]
    exact fun e he => .inl he
  | @created key message t₁ t' new accepts records =>
    obtain ⟨-, -, href, hrecord⟩ := records
    refine .inr ⟨rfl, t₁, t'.apiIdempotency, accepts, by rw [hrecord]; rfl, fun e he => ?_⟩
    rw [hrecord] at he
    rcases OrderedDict.mem_entries_set.mp he with rfl | ⟨he, -⟩
    · exact .inr href
    · exact .inl (accepts.apiIdempotency_eq ▸ he)
  | replayed => exact .inl ⟨rfl, rfl⟩

/-- A call leaves the messages and their counters alone, or accepts one message. -/
theorem DatabaseCall.next_cases {t : Tables} (h : t.Replayable) (call : DatabaseCall) :
    (∃ deliveries bulletinSequence bulletins,
      call.next t = { t with deliveries, bulletinSequence, bulletins }) ∨
        t.AcceptsOne (call.next t) := by
  cases call with
  | message call =>
    rcases call.next_cases h with hnext | ⟨_, _, _, _, _, _, _, houtcome⟩
    · exact .inl ⟨t.deliveries, t.bulletinSequence, t.bulletins, hnext⟩
    · rcases houtcome.accepted with ⟨-, hnext⟩ | ⟨-, t₁, apiIdempotency, haccepts⟩
      · exact .inl ⟨t.deliveries, t.bulletinSequence, t.bulletins, hnext⟩
      · exact .inr ⟨_, _, _, _, t₁, _, apiIdempotency, haccepts⟩
  | bulletin createdAt author title body clock faults =>
    obtain ⟨herr, hok⟩ := storeBulletin_spec t createdAt author title body clock faults
    obtain ⟨hnext, -⟩ := run_discard (storeBulletin createdAt author title body clock faults) t
    rw [next, run, hnext]
    rcases hrun : ((storeBulletin createdAt author title body clock faults).run t).1 with
      e | sequence
    · exact .inl ⟨_, _, _, herr e hrun⟩
    · obtain ⟨bulletin, hpublishes, -⟩ := hok sequence hrun
      obtain ⟨-, -, -, htables⟩ := hpublishes.entries
      exact .inl ⟨_, _, _, htables⟩
  | delivery recipient sequence transport status deliveredAt faults =>
    obtain ⟨herr, hok⟩ := setDelivery_spec t recipient sequence transport status deliveredAt faults
    obtain ⟨hnext, -⟩ :=
      run_discard (setDelivery recipient sequence transport status deliveredAt faults) t
    rw [next, run, hnext]
    rcases hrun : ((setDelivery recipient sequence transport status deliveredAt faults).run t).1
      with e | changed
    · exact .inl ⟨_, _, _, herr e hrun⟩
    · obtain ⟨deliveries, ht'⟩ := hok changed hrun
      exact .inl ⟨deliveries, _, _, ht'⟩

/-! ### A call on tables whose counters are ahead -/

namespace Tables

/-- The counters are ahead of the rows, no two messages share an API sequence, and messages can be
read back and asked for. -/
structure Counted (t : Tables) : Prop extends t.Replayable where
  sequences_le : ∀ e ∈ t.messages.entries, e.1.2 ≤ t.highest e.1.1
  apis_le : ∀ e ∈ t.messages.entries, e.2.apiSequence ≤ t.apiMessageSequence
  apis_nodup : (t.messages.entries.map fun e => e.2.apiSequence).Nodup
  texts : ∀ e ∈ t.messages.entries, (encodeUtf8 e.1.1).isSome ∧ (encodeUtf8 e.2.author).isSome

theorem Consistent.sequence_mem {t : Tables} (h : t.Consistent) {e : (Str × ℕ) × MessageRow}
    (he : e ∈ t.messages.entries) : 1 ≤ e.1.2 ∧ e.1.2 ≤ t.highest e.1.1 := by
  have hmem : e.1.2 ∈ (t.messages.entries.filter fun e' => e'.1.1 = e.1.1).map fun e => e.1.2 :=
    List.mem_map_of_mem (List.mem_filter.mpr ⟨he, decide_eq_true rfl⟩)
  rw [h.mailbox, List.mem_range'_1] at hmem
  exact ⟨hmem.1, Nat.lt_succ_iff.mp (by rw [highest]; omega)⟩

/-- The counters of consistent tables are ahead of their rows. -/
theorem Consistent.counted {t : Tables} (h : t.Consistent) : t.Counted where
  references := h.references
  readable := h.readable
  sequences_le e he := (h.sequence_mem he).2
  apis_le e he := by
    have hmem : e.2.apiSequence ∈ t.messages.entries.map fun e => e.2.apiSequence :=
      List.mem_map_of_mem he
    rw [h.api, List.mem_range'_1] at hmem
    omega
  apis_nodup := by
    rw [h.api]
    exact List.nodup_range'
  texts e he := ⟨h.recipients_encodable e he, h.authors_encodable e he⟩

theorem counted_fresh : fresh.Counted := consistent_fresh.counted

theorem Counted.congr {t t' : Tables} (h : t.Counted) (hmessages : t'.messages = t.messages)
    (hsequences : t'.mailboxSequences = t.mailboxSequences)
    (hapi : t'.apiMessageSequence = t.apiMessageSequence)
    (hkeys : t'.apiIdempotency = t.apiIdempotency) : t'.Counted where
  references := by
    rw [hmessages, hkeys]
    exact h.references
  sequences_le := by
    simp only [hmessages, highest, hsequences]
    exact h.sequences_le
  apis_le := by
    rw [hmessages, hapi]
    exact h.apis_le
  apis_nodup := by
    rw [hmessages]
    exact h.apis_nodup
  readable := by
    rw [hmessages]
    exact h.readable
  texts := by
    rw [hmessages]
    exact h.texts

end Tables

/-- Mailboxes only grow. -/
theorem RowsKept.highest_le {t t' : Tables} (hkept : RowsKept t t') (h : t.Consistent)
    (h' : t'.Consistent) (recipient : Str) : t.highest recipient ≤ t'.highest recipient := by
  have hlength := ((hkept.1.filter fun e => e.1.1 = recipient).map fun e => e.1.2).length_le
  rwa [h.mailbox, h'.mailbox, List.length_range', List.length_range'] at hlength

/-- A new message is ahead of its mailbox. -/
theorem RowsKept.highest_lt {t t' : Tables} (hkept : RowsKept t t') (h : t.Consistent)
    (h' : t'.Consistent) {e : (Str × ℕ) × MessageRow} (he : e ∈ t'.messages.entries)
    (hnew : e ∉ t.messages.entries) : t.highest e.1.1 < e.1.2 := by
  by_contra hle
  have hmem : e.1.2 ∈ List.range' 1 ((t.mailboxSequences.get? e.1.1).getD 0) := by
    have hpos := (h'.sequence_mem he).1
    rw [highest] at hle
    exact List.mem_range'_1.mpr ⟨hpos, by omega⟩
  rw [← h.mailbox] at hmem
  -- The mailbox had a message with this sequence already.
  obtain ⟨old, hfiltered, hsequence⟩ := List.mem_map.mp hmem
  obtain ⟨hold, hrecipient⟩ := List.mem_filter.mp hfiltered
  have hkey : old.1 = e.1 := Prod.ext (of_decide_eq_true hrecipient) hsequence
  exact hnew (OrderedDict.eq_of_fst_eq (hkept.1.subset hold) he hkey ▸ hold)

section Accepted

variable {t t' : Tables} {createdAt : ℤ} {author recipient body : Str} {message : StoredMessage}

/-- The row of an accepted message. It is the last one, and decodes to the message. -/
theorem Accepts.messages_eq (h : Accepts t createdAt author recipient body t' message) :
    ∃ data, encodeUtf8 body = some data ∧
      t'.messages.entries = t.messages.entries ++ [((recipient, t.nextSequence recipient),
        t.nextRow author data message.createdAt message.acceptedAt)] ∧
      storedMessage ((recipient, t.nextSequence recipient),
        t.nextRow author data message.createdAt message.acceptedAt) = .ok message := by
  obtain ⟨data, hdata, rfl⟩ := h.tables_eq
  refine ⟨data, hdata, OrderedDict.entries_set_of_notMem h.key_new _, ?_⟩
  have hpos : 1 ≤ t.nextSequence recipient := Nat.le_add_left 1 _
  rw [nextRow, storedMessage_of_encodeUtf8 hdata hpos h.sequence_le h.created.2]
  exact congrArg Except.ok h.message_eq.symm

theorem Accepts.highest_eq (h : Accepts t createdAt author recipient body t' message) (r : Str) :
    t'.highest r = if r = recipient then t.nextSequence recipient else t.highest r := by
  obtain ⟨data, -, rfl⟩ := h.tables_eq
  show ((t.mailboxSequences.set recipient _).get? r).getD 0 = _
  rw [OrderedDict.get?_set]
  split
  · rfl
  · rfl

theorem Accepts.apiMessageSequence_eq (h : Accepts t createdAt author recipient body t' message) :
    t'.apiMessageSequence = t.apiMessageSequence + 1 := by
  obtain ⟨data, -, rfl⟩ := h.tables_eq
  rfl

theorem Tables.Counted.accept (h : t.Counted)
    (haccepts : Accepts t createdAt author recipient body t' message)
    {apiIdempotency : OrderedDict (Str × Str × Str) IdempotencyRow}
    (hkeys : ∀ e ∈ apiIdempotency.entries, e ∈ t.apiIdempotency.entries ∨
      (e.2.recipient, e.2.mailboxSequence) ∈ t'.messages.keys) :
    Tables.Counted { t' with apiIdempotency } := by
  obtain ⟨data, -, hentries, hstored⟩ := haccepts.messages_eq
  have hapi := haccepts.apiMessageSequence_eq
  have hmem : ∀ e ∈ t'.messages.entries, e ∈ t.messages.entries ∨
      e = ((recipient, t.nextSequence recipient),
        t.nextRow author data message.createdAt message.acceptedAt) := by
    intro e he
    rwa [hentries, List.mem_append, List.mem_singleton] at he
  refine ⟨⟨fun e he => ?_, fun e he => ?_⟩, fun e he => ?_, fun e he => ?_, ?_, fun e he => ?_⟩
  · refine (hkeys e he).elim (fun hold => ?_) id
    obtain ⟨row, hrow⟩ := OrderedDict.mem_keys_iff.mp (h.references e hold)
    refine OrderedDict.mem_keys_of_mem (v := row) ?_
    rw [hentries]
    exact List.mem_append_left _ (OrderedDict.get?_eq_some_iff.mp hrow)
  · rcases hmem e he with he | rfl
    · exact h.readable e he
    · exact ⟨message, hstored⟩
  · show _ ≤ t'.highest e.1.1
    rw [haccepts.highest_eq]
    rcases hmem e he with he | rfl
    · have hle := h.sequences_le e he
      split
      · next hrecipient => exact (hrecipient ▸ hle).trans (Nat.le_succ _)
      · exact hle
    · rw [if_pos rfl]
  · show _ ≤ t'.apiMessageSequence
    rw [hapi]
    rcases hmem e he with he | rfl
    · exact (h.apis_le e he).trans (Nat.le_succ _)
    · exact le_rfl
  · show (t'.messages.entries.map _).Nodup
    rw [hentries, List.map_append, List.nodup_append]
    refine ⟨h.apis_nodup, List.nodup_singleton _, fun a ha b hb => ?_⟩
    obtain ⟨e, he, rfl⟩ := List.mem_map.mp ha
    rw [List.map_singleton, List.mem_singleton] at hb
    rw [hb]
    exact (Nat.lt_succ_of_le (h.apis_le e he)).ne
  · rcases hmem e he with he | rfl
    · exact h.texts e he
    · exact ⟨haccepts.recipient_encodable, haccepts.author_encodable⟩

end Accepted

/-- No call lowers the last value of a mailbox. -/
theorem DatabaseCall.highest_le {t : Tables} (h : t.Counted) (call : DatabaseCall) (r : Str) :
    t.highest r ≤ (call.next t).highest r := by
  rcases call.next_cases h.toReplayable with ⟨deliveries, bulletinSequence, bulletins, hnext⟩ |
    ⟨createdAt, author, recipient, body, t₁, message, apiIdempotency, haccepts, hnext, -⟩
  · rw [hnext]
    exact le_rfl
  · rw [hnext]
    show _ ≤ t₁.highest r
    rw [haccepts.highest_eq]
    split
    · next hr => exact hr ▸ Nat.le_succ _
    · exact le_rfl

/-- The last message of the node: beyond its mailbox, and beyond all messages. -/
structure Tables.Beyond (t : Tables) (e : (Str × ℕ) × MessageRow) : Prop where
  sequence : t.highest e.1.1 < e.1.2
  api : t.apiMessageSequence < e.2.apiSequence

/-- A call keeps the counters ahead, and adds at most one message, which is beyond the others. -/
theorem DatabaseCall.next_rows {t : Tables} (h : t.Counted) (call : DatabaseCall) :
    (call.next t).Counted ∧ ((call.next t).messages = t.messages ∨ ∃ e,
      (call.next t).messages.entries = t.messages.entries ++ [e] ∧ t.Beyond e) := by
  rcases call.next_cases h.toReplayable with ⟨deliveries, bulletinSequence, bulletins, hnext⟩ |
    ⟨createdAt, author, recipient, body, t₁, message, apiIdempotency, haccepts, hnext, hkeys⟩
  · rw [hnext]
    exact ⟨h.congr rfl rfl rfl rfl, .inl rfl⟩
  · obtain ⟨data, -, hentries, -⟩ := haccepts.messages_eq
    rw [hnext]
    exact ⟨h.accept haccepts hkeys,
      .inr ⟨_, hentries, ⟨Nat.lt_succ_self _, Nat.lt_succ_self _⟩⟩⟩

end OpenQSP
