import OpenQSP.Lib.Runs
import OpenQSP.Storage.Messages

/-!
# The sequences of the message store

Every accepted message takes the next value of its recipient's mailbox sequence and the next value
of the node-wide API sequence. Two separately written transactions do this, in a different order of
statements and with different checks. Here each is shown to do one of two things: raise and leave
the database as it was, or accept exactly one message (`Tables.accept`), possibly under an
idempotency key (`Tables.record`) — or, for a known key, change nothing.

What holds of every reachable database then follows from what accepting one message preserves.

## Main definitions

* `Tables.accept`, `Tables.record` — the effect of accepting a message and of recording a key
* `Tables.Consistent` — the invariant, in terms of insertion order
* `Tables.SequencesExact` — what it says about the rows
* `StoreCall`, `StoreCall.next`, `storeState` — runs of the store

## Main results

* `storeMessage_spec`, `storeMessageIdempotent_spec` — one call
* `Tables.Consistent.accept`, `StoreCall.next_spec` — what one call preserves
* **`messageStore_sequences`** — the contiguity of both sequences and the immutability of rows, in
  every state of every run with arbitrary failures
-/

namespace OpenQSP

open Session

namespace Tables

/-- The next mailbox sequence of a recipient. -/
def nextSequence (t : Tables) (recipient : Str) : ℕ :=
  (t.mailboxSequences.get? recipient).getD 0 + 1

/-- The row of the next message. -/
def nextRow (t : Tables) (author : Str) (body : Bytes) (createdAt acceptedAt : ℕ) : MessageRow :=
  ⟨t.apiMessageSequence + 1, createdAt, acceptedAt, author, body⟩

/-- The tables with one more message. -/
def accept (t : Tables) (author recipient : Str) (body : Bytes) (createdAt acceptedAt : ℕ) :
    Tables :=
  { t with
    apiMessageSequence := t.apiMessageSequence + 1
    mailboxSequences := t.mailboxSequences.set recipient (t.nextSequence recipient)
    messages := t.messages.set (recipient, t.nextSequence recipient)
      (t.nextRow author body createdAt acceptedAt) }

/-- The tables with one more idempotency key. -/
def record (t : Tables) (author key requestHash recipient : Str) (sequence : ℕ) : Tables :=
  { t with
    apiIdempotency := t.apiIdempotency.set (author, str "send", key)
      ⟨requestHash, recipient, sequence⟩ }

/-- Both sequences are contiguous in insertion order, every key refers to a message, and every row
can be decoded. -/
structure Consistent (t : Tables) : Prop where
  /-- The API sequences of the messages are `1, …, N`, in insertion order. -/
  api : t.messages.entries.map (fun e => e.2.apiSequence) = List.range' 1 t.apiMessageSequence
  /-- The mailbox sequences of a recipient are `1, …, n`, in insertion order. -/
  mailbox : ∀ r, (t.messages.entries.filter fun e => e.1.1 = r).map (fun e => e.1.2) =
    List.range' 1 ((t.mailboxSequences.get? r).getD 0)
  /-- An empty mailbox has no high-water row. -/
  positive : ∀ r n, t.mailboxSequences.get? r = some n → n ≠ 0
  /-- Every idempotency key refers to a message. -/
  references : ∀ e ∈ t.apiIdempotency.entries,
    (e.2.recipient, e.2.mailboxSequence) ∈ t.messages.keys
  /-- Every message can be read back. -/
  readable : ∀ e ∈ t.messages.entries, ∃ message, storedMessage e = .ok message
  /-- Text columns hold encodable text. -/
  recipients_encodable : ∀ e ∈ t.messages.entries, (encodeUtf8 e.1.1).isSome
  authors_encodable : ∀ e ∈ t.messages.entries, (encodeUtf8 e.2.author).isSome
  keys_encodable : ∀ e ∈ t.apiIdempotency.entries, (encodeUtf8 e.1.2.2).isSome

/-- Every idempotency key refers to a message that can be read back, so that a known key can be
answered. -/
structure Replayable (t : Tables) : Prop where
  references : ∀ e ∈ t.apiIdempotency.entries,
    (e.2.recipient, e.2.mailboxSequence) ∈ t.messages.keys
  readable : ∀ e ∈ t.messages.entries, ∃ message, storedMessage e = .ok message

theorem Consistent.replayable {t : Tables} (h : t.Consistent) : t.Replayable :=
  ⟨h.references, h.readable⟩

theorem consistent_fresh : fresh.Consistent where
  api := rfl
  mailbox _ := rfl
  positive _ _ h := by cases h
  references _ h := by cases h
  readable _ h := by cases h
  recipients_encodable _ h := by cases h
  authors_encodable _ h := by cases h
  keys_encodable _ h := by cases h

end Tables

/-! ### Decoding what was stored -/

theorem validateStoredU32_of_le (allowZero : Bool) {value : ℕ} {field : String}
    (hmin : (if allowZero then 0 else 1) ≤ value) (hmax : value ≤ maxU32) :
    validateStoredU32 value field allowZero = .ok value := by
  rw [validateStoredU32, raiseIf_of_not (not_not.mpr ⟨hmin, hmax⟩)]
  rfl

theorem encodeBody_eq_ok {body : Str} {data : Bytes} :
    encodeBody body = .ok data ↔ encodeUtf8 body = some data := by
  rw [encodeBody]
  split <;> simp_all

/-- A row with columns in range and an encoded body is decoded to the message it stores. -/
theorem storedMessage_of_encodeUtf8 {recipient author body : Str} {data : Bytes}
    {sequence createdAt acceptedAt apiSequence : ℕ} (hbody : encodeUtf8 body = some data)
    (hpos : 1 ≤ sequence) (hmax : sequence ≤ maxU32) (hcreated : createdAt ≤ maxU32) :
    storedMessage ((recipient, sequence), ⟨apiSequence, createdAt, acceptedAt, author, data⟩) =
      .ok ⟨sequence, createdAt, acceptedAt, author, recipient, body, apiSequence⟩ := by
  simp only [storedMessage, validateStoredU32_of_le false hpos hmax,
    validateStoredU32_of_le true (Nat.zero_le _) hcreated, Py.ok_bind,
    decodeUtf8_of_encodeUtf8 hbody]
  rfl

/-- A row with columns in range and a body that is text is decoded. -/
theorem storedMessage_of_decodeUtf8 {e : (Str × ℕ) × MessageRow} {body : Str}
    (hbody : decodeUtf8 e.2.body = some body) (hpos : 1 ≤ e.1.2) (hmax : e.1.2 ≤ maxU32)
    (hcreated : e.2.createdAt ≤ maxU32) : storedMessage e =
      .ok ⟨e.1.2, e.2.createdAt, e.2.acceptedAt, e.2.author, e.1.1, body, e.2.apiSequence⟩ := by
  simp only [storedMessage, validateStoredU32_of_le false hpos hmax,
    validateStoredU32_of_le true (Nat.zero_le _) hcreated, Py.ok_bind, hbody]
  rfl

/-- The query of a page does not read the API sequence, and its messages do not need it. -/
theorem storedMessage_withoutApi {e : (Str × ℕ) × MessageRow} {stored : StoredMessage}
    (h : storedMessage e = .ok stored) :
    storedMessage (e.1, { e.2 with apiSequence := 0 }) = .ok { stored with apiSequence := 0 } := by
  obtain ⟨sequence, hsequence, h⟩ := Py.bind_eq_ok.mp h
  obtain ⟨createdAt, hcreated, h⟩ := Py.bind_eq_ok.mp h
  simp only [storedMessage, hsequence, hcreated, Py.ok_bind]
  split at h
  · cases h
  · obtain rfl := Except.ok.inj h
    rfl

/-! ### What a call of the store does -/

/-- The next message of `recipient` fits, and `t'` is `t` with it. -/
structure Accepts (t : Tables) (createdAt : ℤ) (author recipient body : Str) (t' : Tables)
    (message : StoredMessage) : Prop where
  /-- The mailbox is not exhausted. -/
  sequence_le : t.nextSequence recipient ≤ maxU32
  /-- The next API sequence is an integer of the engine. -/
  api_le : t.apiMessageSequence + 1 ≤ maxSqliteInteger
  /-- The recipient is encodable text. -/
  recipient_encodable : (encodeUtf8 recipient).isSome
  /-- The author is encodable text. -/
  author_encodable : (encodeUtf8 author).isSome
  /-- The primary key is new. -/
  key_new : (recipient, t.nextSequence recipient) ∉ t.messages.keys
  /-- The timestamp is an unsigned 32-bit value. -/
  created : (message.createdAt : ℤ) = createdAt ∧ message.createdAt ≤ maxU32
  /-- The message that was stored. -/
  message_eq : message = ⟨t.nextSequence recipient, message.createdAt, message.acceptedAt, author,
    recipient, body, t.apiMessageSequence + 1⟩
  /-- The new tables. -/
  tables_eq : ∃ data, encodeUtf8 body = some data ∧
    t' = t.accept author recipient data message.createdAt message.acceptedAt

/-- The key is new, and `t'` is `t` with it. -/
def Records (t : Tables) (author key requestHash recipient : Str) (sequence : ℕ) (t' : Tables) :
    Prop :=
  (encodeUtf8 key).isSome ∧ (author, str "send", key) ∉ t.apiIdempotency.keys ∧
    (recipient, sequence) ∈ t.messages.keys ∧
    t' = t.record author key requestHash recipient sequence

section Calls

open Tables

variable {t : Tables} {createdAt clock : ℤ} {author recipient body requestHash : Str}

theorem storeMessageTransaction_commits {data : Bytes} (hbody : encodeUtf8 body = some data) :
    Commits (· = t) (storeMessageTransaction createdAt author recipient data clock)
      fun sequence t' => ∃ message, Accepts t createdAt author recipient body t' message ∧
        message.sequence = sequence := by
  rw [storeMessageTransaction]
  refine Commits.step fun row t₁ h => ?_
  obtain ⟨hrow, rfl⟩ := select_eq_ok.mp h
  obtain rfl := mailboxSequence_eq_ok hrow
  refine Commits.check fun last hlast => ?_
  have hlast : last = (t₁.mailboxSequences.get? recipient).getD 0 := by
    rcases hget : t₁.mailboxSequences.get? recipient with _ | value
    · rw [hget] at hlast
      exact (Except.ok.inj hlast).symm
    · rw [hget] at hlast
      obtain ⟨_, -, hvalue⟩ := Py.bind_eq_ok.mp hlast
      exact (Except.ok.inj hvalue).symm
  refine Commits.check fun _ _ => Commits.check fun acceptedAt _ => ?_
  refine Commits.step fun apiLast t₂ h => ?_
  obtain ⟨hapi, rfl⟩ := select_eq_ok.mp h
  obtain rfl := Except.ok.inj hapi
  refine Commits.step fun _ t₃ h => ?_
  obtain ⟨hapi, rfl⟩ := updateApiSequence_eq_ok h
  refine Commits.step fun _ t₄ h => ?_
  obtain ⟨hmax, rfl⟩ := upsertMailbox_eq_ok h
  refine Commits.step fun _ t₅ h => ?_
  obtain ⟨hrecipient, hauthor, hpos, hcreated, hkey, -, rfl⟩ := insertMessage_eq_ok h
  subst hlast
  refine Commits.commit fun d hd => ⟨_, rfl, ?_⟩
  refine ⟨⟨t₂.nextSequence recipient, createdAt.toNat, acceptedAt, author, recipient, body,
    t₂.apiMessageSequence + 1⟩, ⟨by exact_mod_cast hmax, by exact_mod_cast hapi, hrecipient,
    hauthor, hkey, ⟨Int.toNat_of_nonneg hpos, ?_⟩, rfl, data, hbody, hd⟩, rfl⟩
  exact Int.toNat_le.mpr hcreated

/-- One call of `storeMessage`: it raises and changes nothing, or it accepts one message and
returns its mailbox sequence. -/
theorem storeMessage_spec (t : Tables) (createdAt : ℤ) (author recipient body : Str) (clock : ℤ)
    (faults : Faults) :
    (∀ e, ((storeMessage createdAt author recipient body clock faults).run t).1 = .error e →
      ((storeMessage createdAt author recipient body clock faults).run t).2 = t) ∧
    ∀ sequence, ((storeMessage createdAt author recipient body clock faults).run t).1 =
        .ok sequence →
      ∃ message, Accepts t createdAt author recipient body
        ((storeMessage createdAt author recipient body clock faults).run t).2 message ∧
          message.sequence = sequence := by
  rw [storeMessage]
  rcases requireU32 "created_at" createdAt with e | _
  · exact ⟨fun _ _ => rfl, fun _ h => by cases h⟩
  · rcases hbody : encodeBody body with e | data
    · exact ⟨fun _ _ => rfl, fun _ h => by cases h⟩
    · exact run_closing_atomically
        (storeMessageTransaction_commits (encodeBody_eq_ok.mp hbody)) faults

/-- The first row a query for a new API sequence finds is the row just inserted. -/
theorem find?_nextRow (author : Str) {t : Tables} (data : Bytes) (createdAt acceptedAt : ℕ)
    (hkey : (recipient, t.nextSequence recipient) ∉ t.messages.keys)
    (hunique : ∀ e ∈ t.messages.entries, (e.2.apiSequence : ℤ) ≠ (t.apiMessageSequence + 1 : ℕ)) :
    (t.accept author recipient data createdAt acceptedAt).messages.entries.find?
        (fun e => (e.2.apiSequence : ℤ) = (t.apiMessageSequence + 1 : ℕ)) =
      some ((recipient, t.nextSequence recipient), t.nextRow author data createdAt acceptedAt) := by
  rw [accept, OrderedDict.entries_set_of_notMem hkey, List.find?_append,
    List.find?_eq_none.mpr fun e he => by simpa using hunique e he]
  simp [nextRow]

theorem createTransaction_commits (idempotencyKey : Option Str) :
    Commits (· = t)
      (createTransaction createdAt author recipient body idempotencyKey requestHash clock)
      fun result t' => ∃ t₁, Accepts t createdAt author recipient body t₁ result.1 ∧
        result.2 = true ∧
        match idempotencyKey with
        | none => t' = t₁
        | some key => Records t₁ author key requestHash recipient result.1.sequence t' := by
  rw [createTransaction]
  refine Commits.step fun row t₁ h => ?_
  obtain ⟨hrow, rfl⟩ := select_eq_ok.mp h
  obtain rfl := mailboxSequence_eq_ok hrow
  refine Commits.check fun _ _ => ?_
  refine Commits.step fun apiLast t₂ h => ?_
  obtain ⟨hapi, rfl⟩ := select_eq_ok.mp h
  obtain rfl := Except.ok.inj hapi
  refine Commits.check fun acceptedAt _ => ?_
  refine Commits.step fun _ t₃ h => ?_
  obtain ⟨hmax, rfl⟩ := upsertMailbox_eq_ok h
  refine Commits.step fun _ t₄ h => ?_
  obtain ⟨hapi, rfl⟩ := updateApiSequence_eq_ok h
  refine Commits.check fun data hdata => ?_
  rw [encodeBody_eq_ok] at hdata
  refine Commits.step fun _ t₅ h => ?_
  obtain ⟨hrecipient, hauthor, hpos, hcreated, hkey, hunique, ht₅⟩ := insertMessage_eq_ok h
  have haccept : t₅ = t₂.accept author recipient data createdAt.toNat acceptedAt := ht₅
  clear ht₅ h
  subst haccept
  have hle : t₂.nextSequence recipient ≤ maxU32 := by exact_mod_cast hmax
  have hcreated' : createdAt.toNat ≤ maxU32 := Int.toNat_le.mpr hcreated
  set message : StoredMessage := ⟨t₂.nextSequence recipient, createdAt.toNat, acceptedAt, author,
    recipient, body, t₂.apiMessageSequence + 1⟩ with hmessage
  have haccepts : Accepts t₂ createdAt author recipient body
      (t₂.accept author recipient data createdAt.toNat acceptedAt) message :=
    ⟨hle, by exact_mod_cast hapi, hrecipient, hauthor, hkey, ⟨Int.toNat_of_nonneg hpos, hcreated'⟩,
      rfl, data, hdata, rfl⟩
  have hdecode : storedMessage? (some ((recipient, t₂.nextSequence recipient),
      t₂.nextRow author data createdAt.toNat acceptedAt)) = .ok message :=
    storedMessage_of_encodeUtf8 hdata (Nat.le_add_left 1 _) hle hcreated'
  have hfind := find?_nextRow author data createdAt.toNat acceptedAt hkey (fun e he =>
    by exact_mod_cast hunique e he)
  cases idempotencyKey with
  | none =>
    refine Commits.step fun row t₇ h => ?_
    obtain ⟨hfound, rfl⟩ := select_eq_ok.mp h
    obtain rfl := (messageByApiSequence_eq_ok hfound).trans hfind
    refine Commits.commit fun d hd => ⟨(message, true), ?_, _, haccepts, rfl, hd⟩
    rw [hdecode]
    rfl
  | some key =>
    refine Commits.step fun _ t₆ h => ?_
    obtain ⟨hencodable, hnew, href, ht₆⟩ := insertIdempotency_eq_ok h
    have hrecord : t₆ = (t₂.accept author recipient data createdAt.toNat acceptedAt).record author
        key requestHash recipient (t₂.nextSequence recipient) := ht₆
    clear ht₆ h
    subst hrecord
    refine Commits.step fun row t₇ h => ?_
    obtain ⟨hfound, rfl⟩ := select_eq_ok.mp h
    obtain rfl := (messageByApiSequence_eq_ok hfound).trans hfind
    refine Commits.commit fun d hd => ⟨(message, true), ?_, _, haccepts, rfl, hencodable, hnew,
      href,
      hd⟩
    rw [hdecode]
    rfl

/-- The message a key refers to is read back. -/
theorem Tables.Replayable.find?_reference (h : t.Replayable) {author key : Str}
    {old : IdempotencyRow} (hold : t.apiIdempotency.get? (author, str "send", key) = some old) :
    ∃ e ∈ t.messages.entries, e.1 = (old.recipient, old.mailboxSequence) ∧
      t.messages.entries.find? (fun e => e.1.1 = old.recipient &&
        (e.1.2 : ℤ) = (old.mailboxSequence : ℤ)) = some e ∧
      ∃ message, storedMessage e = .ok message := by
  have href := h.references _ (OrderedDict.get?_eq_some_iff.mp hold)
  obtain ⟨row, hrow⟩ := OrderedDict.mem_keys_iff.mp href
  have hmem := OrderedDict.get?_eq_some_iff.mp hrow
  obtain ⟨e, he⟩ := Option.isSome_iff_exists.mp (List.find?_isSome
    (p := fun e : (Str × ℕ) × MessageRow => e.1.1 = old.recipient &&
      (e.1.2 : ℤ) = (old.mailboxSequence : ℤ)) |>.mpr ⟨_, hmem, by simp⟩)
  have hcond := List.find?_some he
  have hmem' := List.mem_of_find?_eq_some he
  simp only [Bool.and_eq_true, decide_eq_true_eq, Nat.cast_inj] at hcond
  exact ⟨e, hmem', Prod.ext hcond.1 hcond.2, he, h.readable e hmem'⟩

theorem replayTransaction_commits (h : t.Replayable) {key : Str} {old : IdempotencyRow}
    (hold : t.apiIdempotency.get? (author, str "send", key) = some old) :
    Commits (· = t) (replayTransaction old requestHash) fun result t' =>
      t' = t ∧ result.2 = false ∧ old.requestHash = requestHash ∧
      ∃ e ∈ t.messages.entries, e.1 = (old.recipient, old.mailboxSequence) ∧
        storedMessage e = .ok result.1 := by
  rw [replayTransaction]
  refine Commits.check fun _ hhash => ?_
  rw [raiseIf_eq_ok, not_not] at hhash
  refine Commits.step fun row t₁ hrow => ?_
  obtain ⟨hrow, rfl⟩ := select_eq_ok.mp hrow
  obtain ⟨e, hmem, hkey, hfind, message, hmessage⟩ := h.find?_reference hold
  obtain rfl := (messageAt_eq_ok hrow).trans hfind
  refine Commits.commit fun d hd => ⟨(message, false), ?_, hd, rfl, hhash, e, hmem, hkey, hmessage⟩
  simp only [storedMessage?, hmessage]
  rfl

theorem bindText_of_isSome {value : Str} (h : (encodeUtf8 value).isSome) :
    bindText value = .ok value := bindText_eq_ok.mpr ⟨rfl, h⟩

theorem bindInteger_of_le {value : ℕ} (h : value ≤ maxU32) :
    bindInteger (value : ℤ) = .ok (value : ℤ) := by
  have hmax : (value : ℤ) ≤ 4294967295 := by exact_mod_cast h
  rw [bindInteger, if_pos (by simp only [maxSqliteInteger]; constructor <;> push_cast <;> omega)]

theorem storedMessage_eq_ok {e : (Str × ℕ) × MessageRow} {message : StoredMessage}
    (h : storedMessage e = .ok message) :
    1 ≤ e.1.2 ∧ e.1.2 ≤ maxU32 ∧ message.sequence = e.1.2 ∧ message.recipient = e.1.1 ∧
      message.author = e.2.author ∧ message.apiSequence = e.2.apiSequence := by
  simp only [storedMessage, validateStoredU32, Py.bind_eq_ok, raiseIf_eq_ok, not_not] at h
  obtain ⟨_, ⟨_, ⟨hmin, hmax⟩, hs⟩, _, ⟨_, -, hc⟩, h⟩ := h
  obtain rfl := Except.ok.inj hs
  split at h
  · cases h
  · obtain rfl := Except.ok.inj h
    exact ⟨hmin, hmax, rfl, rfl, rfl, rfl⟩

/-- A known key with the same hash gives back its message, with nothing written. -/
theorem storeMessageIdempotent_known (h : t.Consistent) (hauthor : (encodeUtf8 author).isSome)
    {key : Str} {old : IdempotencyRow}
    (hold : t.apiIdempotency.get? (author, str "send", key) = some old) :
    ((storeMessageIdempotent createdAt author recipient body (some key) requestHash clock []).run t)
      = if old.requestHash = requestHash then
          ((do return (← storedMessage? (t.messages.entries.find? fun e =>
            e.1.1 = old.recipient && (e.1.2 : ℤ) = (old.mailboxSequence : ℤ)), false)), t)
        else (.error ⟨.idempotencyConflictError, "key reused with another request"⟩, t) := by
  have hmem := OrderedDict.get?_eq_some_iff.mp hold
  have hlookup : select (idempotencyAt author key) t =
      .ok (some old, t) := by
    simp only [select, idempotencyAt, bindText_of_isSome hauthor,
      bindText_of_isSome (h.keys_encodable _ hmem), Py.ok_bind, hold]
    rfl
  obtain ⟨e, he, hkey, hfind, message, hmessage⟩ := h.replayable.find?_reference hold
  have hrecipient : (encodeUtf8 old.recipient).isSome := by
    have := h.recipients_encodable e he
    rwa [hkey] at this
  have hsequence : old.mailboxSequence ≤ maxU32 := by
    have := (storedMessage_eq_ok hmessage).2.1
    rwa [hkey] at this
  have hrow : select (messageAt old.recipient old.mailboxSequence) t = .ok
      (t.messages.entries.find? fun e => e.1.1 = old.recipient &&
        (e.1.2 : ℤ) = (old.mailboxSequence : ℤ), t) := by
    simp only [select, messageAt, bindText_of_isSome hrecipient, bindInteger_of_le hsequence,
      Py.ok_bind]
    rfl
  rw [storeMessageIdempotent, run_closing_atomically_nil]
  simp only [storeMessageIdempotentTransaction]
  rw [Method.run_bind_of_ok (run_execute_of_ok hlookup)]
  simp only [replayTransaction]
  split
  · next hhash =>
    rw [raiseIf_of_not (not_not.mpr hhash), Method.run_ofExcept_ok_bind,
      Method.run_bind_of_ok (run_execute_of_ok hrow), Method.run_bind_of_ok (run_commit _ _),
      Method.run_ofExcept]
  · next hhash =>
    rw [raiseIf, if_pos hhash]
    rfl

/-- What a returning call of `storeMessageIdempotent` has done: accepted one message, recorded
under its key if it has one, or found the key. -/
inductive KeyedOutcome (t : Tables) (createdAt : ℤ) (author recipient body : Str)
    (requestHash : Str) : Option Str → StoredMessage × Bool → Tables → Prop
  | unkeyed {message : StoredMessage} {t' : Tables}
      (accepts : Accepts t createdAt author recipient body t' message) :
      KeyedOutcome t createdAt author recipient body requestHash none (message, true) t'
  | created {key : Str} {message : StoredMessage} {t₁ t' : Tables}
      (new : t.apiIdempotency.get? (author, str "send", key) = none)
      (accepts : Accepts t createdAt author recipient body t₁ message)
      (records : Records t₁ author key requestHash recipient message.sequence t') :
      KeyedOutcome t createdAt author recipient body requestHash (some key) (message, true) t'
  | replayed {key : Str} {message : StoredMessage} {old : IdempotencyRow}
      {e : (Str × ℕ) × MessageRow}
      (known : t.apiIdempotency.get? (author, str "send", key) = some old)
      (hash : old.requestHash = requestHash)
      (mem : e ∈ t.messages.entries) (ref : e.1 = (old.recipient, old.mailboxSequence))
      (stored : storedMessage e = .ok message) :
      KeyedOutcome t createdAt author recipient body requestHash (some key) (message, false) t

theorem storeMessageIdempotentTransaction_commits (h : t.Replayable)
    (idempotencyKey : Option Str) :
    Commits (· = t)
      (storeMessageIdempotentTransaction createdAt author recipient body idempotencyKey requestHash
        clock)
      (KeyedOutcome t createdAt author recipient body requestHash idempotencyKey) := by
  unfold storeMessageIdempotentTransaction
  cases idempotencyKey with
  | none =>
    refine (createTransaction_commits none).mono fun result t' hresult => ?_
    obtain ⟨message, created⟩ := result
    obtain ⟨t₁, haccepts, rfl, rfl⟩ := hresult
    exact .unkeyed haccepts
  | some key =>
    refine Commits.step fun old t₁ hold => ?_
    obtain ⟨hold, rfl⟩ := select_eq_ok.mp hold
    have hold := idempotencyAt_eq_ok hold
    cases old with
    | none =>
      refine (createTransaction_commits (some key)).mono fun result t' hresult => ?_
      obtain ⟨message, created⟩ := result
      obtain ⟨t₂, haccepts, rfl, hrecords⟩ := hresult
      exact .created hold.symm haccepts hrecords
    | some old =>
      refine (replayTransaction_commits h hold.symm).mono fun result t' hresult => ?_
      obtain ⟨message, created⟩ := result
      obtain ⟨rfl, rfl, hhash, e, hmem, href, hstored⟩ := hresult
      exact .replayed hold.symm hhash hmem href hstored

/-- One call of `storeMessageIdempotent`. -/
theorem storeMessageIdempotent_spec (h : t.Replayable) (createdAt : ℤ)
    (author recipient body : Str) (idempotencyKey : Option Str) (requestHash : Str) (clock : ℤ)
    (faults : Faults) :
    (∀ e, ((storeMessageIdempotent createdAt author recipient body idempotencyKey requestHash clock
        faults).run t).1 = .error e →
      ((storeMessageIdempotent createdAt author recipient body idempotencyKey requestHash clock
        faults).run t).2 = t) ∧
    ∀ result, ((storeMessageIdempotent createdAt author recipient body idempotencyKey requestHash
        clock faults).run t).1 = .ok result →
      KeyedOutcome t createdAt author recipient body requestHash idempotencyKey result
        ((storeMessageIdempotent createdAt author recipient body idempotencyKey requestHash clock
          faults).run t).2 :=
  run_closing_atomically (storeMessageIdempotentTransaction_commits h idempotencyKey) faults

end Calls

/-! ### What accepting a message preserves -/

namespace Tables.Consistent

variable {t : Tables}

theorem nextSequence_pos (t : Tables) (r : Str) : 1 ≤ t.nextSequence r := Nat.le_add_left 1 _

/-- Accepting one message extends both sequences by one value. -/
theorem accept {createdAt : ℤ} {author recipient body : Str} {t' : Tables}
    {message : StoredMessage} (h : t.Consistent)
    (haccepts : Accepts t createdAt author recipient body t' message) : t'.Consistent := by
  obtain ⟨hle, -, hrecipient, hauthor, hkey, ⟨-, hcreated⟩, -, data, hdata, rfl⟩ := haccepts
  have hentries := OrderedDict.entries_set_of_notMem hkey
    (t.nextRow author data message.createdAt message.acceptedAt)
  have hmem (e : (Str × ℕ) × MessageRow) (he : e ∈ (t.accept author recipient data
      message.createdAt message.acceptedAt).messages.entries) : e ∈ t.messages.entries ∨
        e = ((recipient, t.nextSequence recipient),
          t.nextRow author data message.createdAt message.acceptedAt) := by
    have he' : e ∈ (OrderedDict.set _ _ _).entries := he
    rwa [hentries, List.mem_append, List.mem_singleton] at he'
  refine ⟨?_, fun r => ?_, fun r n hn => ?_, fun e he => ?_, fun e he => ?_, fun e he => ?_,
    fun e he => ?_, h.keys_encodable⟩
  · show (OrderedDict.set _ _ _).entries.map _ = List.range' 1 (t.apiMessageSequence + 1)
    rw [hentries, List.map_append, h.api, List.range'_concat]
    simp [nextRow, Nat.add_comm]
  · show ((OrderedDict.set _ _ _).entries.filter _).map _ = _
    rw [hentries, List.filter_append, List.map_append, h.mailbox]
    by_cases hr : recipient = r
    · subst hr
      have hget : (t.accept author recipient data message.createdAt
          message.acceptedAt).mailboxSequences.get? recipient = some (t.nextSequence recipient) :=
        OrderedDict.get?_set_self _ _ _
      rw [hget, Option.getD_some]
      rw [nextSequence]
      rw [List.range'_concat]
      simp [Nat.add_comm]
    · have hget : (t.accept author recipient data message.createdAt
          message.acceptedAt).mailboxSequences.get? r = t.mailboxSequences.get? r :=
        OrderedDict.get?_set_of_ne (Ne.symm hr)
      rw [hget]
      simp [hr]
  · have hget : (t.mailboxSequences.set recipient (t.nextSequence recipient)).get? r = some n := hn
    rw [OrderedDict.get?_set] at hget
    split at hget
    · obtain rfl := Option.some.inj hget
      exact Nat.succ_ne_zero _
    · exact h.positive r n hget
  · have hold := h.references e he
    obtain ⟨row, hrow⟩ := OrderedDict.mem_keys_iff.mp hold
    refine OrderedDict.mem_keys_of_mem (v := row) ?_
    show _ ∈ (OrderedDict.set _ _ _).entries
    rw [hentries]
    exact List.mem_append_left _ (OrderedDict.get?_eq_some_iff.mp hrow)
  · rcases hmem e he with he' | rfl
    · exact h.readable e he'
    · exact ⟨_, storedMessage_of_encodeUtf8 hdata (nextSequence_pos t recipient) hle hcreated⟩
  · rcases hmem e he with he' | rfl
    · exact h.recipients_encodable e he'
    · exact hrecipient
  · rcases hmem e he with he' | rfl
    · exact h.authors_encodable e he'
    · exact hauthor

theorem record {author key requestHash recipient : Str} {sequence : ℕ} {t' : Tables}
    (h : t.Consistent) (hrecords : Records t author key requestHash recipient sequence t') :
    t'.Consistent := by
  obtain ⟨hencodable, -, href, rfl⟩ := hrecords
  refine ⟨h.api, h.mailbox, h.positive, fun e he => ?_, h.readable, h.recipients_encodable,
    h.authors_encodable, fun e he => ?_⟩
  all_goals rcases OrderedDict.mem_entries_set.mp he with rfl | ⟨he, -⟩
  · exact href
  · exact h.references e he
  · exact hencodable
  · exact h.keys_encodable e he

end Tables.Consistent

/-- The messages and the keys of `t` are still there, unchanged, in `t'`. -/
def RowsKept (t t' : Tables) : Prop :=
  t.messages.entries <+: t'.messages.entries ∧
    t.apiIdempotency.entries <+: t'.apiIdempotency.entries

theorem RowsKept.refl (t : Tables) : RowsKept t t := ⟨List.prefix_refl _, List.prefix_refl _⟩

theorem RowsKept.trans {t t' t'' : Tables} (h : RowsKept t t') (h' : RowsKept t' t'') :
    RowsKept t t'' := ⟨h.1.trans h'.1, h.2.trans h'.2⟩

theorem Accepts.rowsKept {t t' : Tables} {createdAt : ℤ} {author recipient body : Str}
    {message : StoredMessage} (h : Accepts t createdAt author recipient body t' message) :
    RowsKept t t' := by
  obtain ⟨data, -, rfl⟩ := h.tables_eq
  refine ⟨?_, List.prefix_refl _⟩
  show _ <+: (OrderedDict.set _ _ _).entries
  rw [OrderedDict.entries_set_of_notMem h.key_new]
  exact List.prefix_append _ _

theorem Records.rowsKept {t t' : Tables} {author key requestHash recipient : Str} {sequence : ℕ}
    (h : Records t author key requestHash recipient sequence t') : RowsKept t t' := by
  obtain ⟨-, hnew, -, rfl⟩ := h
  refine ⟨List.prefix_refl _, ?_⟩
  show _ <+: (OrderedDict.set _ _ _).entries
  rw [OrderedDict.entries_set_of_notMem hnew]
  exact List.prefix_append _ _

theorem KeyedOutcome.preserves {t t' : Tables} {createdAt : ℤ}
    {author recipient body requestHash : Str} {idempotencyKey : Option Str}
    {result : StoredMessage × Bool}
    (h : KeyedOutcome t createdAt author recipient body requestHash idempotencyKey result t')
    (hconsistent : t.Consistent) : t'.Consistent ∧ RowsKept t t' := by
  cases h with
  | unkeyed accepts => exact ⟨hconsistent.accept accepts, accepts.rowsKept⟩
  | created _ accepts records =>
    exact ⟨(hconsistent.accept accepts).record records, accepts.rowsKept.trans records.rowsKept⟩
  | replayed => exact ⟨hconsistent, RowsKept.refl t⟩

/-! ### Runs -/

/-- A call of the store, with what the engine does to its statements. -/
inductive StoreCall
  | storeMessage (createdAt : ℤ) (author recipient body : Str) (clock : ℤ) (faults : Faults)
  | storeMessageIdempotent (createdAt : ℤ) (author recipient body : Str)
      (idempotencyKey : Option Str) (requestHash : Str) (clock : ℤ) (faults : Faults)

namespace StoreCall

/-- The call as a method of the database; what it returns is dropped. -/
def run : StoreCall → Method PyError Tables Unit
  | storeMessage createdAt author recipient body clock faults =>
    discard (OpenQSP.storeMessage createdAt author recipient body clock faults)
  | storeMessageIdempotent createdAt author recipient body idempotencyKey requestHash clock
      faults =>
    discard (OpenQSP.storeMessageIdempotent createdAt author recipient body idempotencyKey
      requestHash clock faults)

/-- The database after a call. -/
def next (t : Tables) (call : StoreCall) : Tables := (call.run.run t).2

end StoreCall

theorem run_discard {α : Type} (m : Method PyError Tables α) (t : Tables) :
    ((discard m).run t).2 = (m.run t).2 ∧
      ∀ e, ((discard m).run t).1 = .error e → (m.run t).1 = .error e := by
  show ((m >>= fun _ => pure ()).run t).2 = _ ∧ ∀ e, ((m >>= fun _ => pure ()).run t).1 = _ → _
  rw [Method.run_bind]
  rcases m.run t with ⟨e | a, t'⟩
  · exact ⟨rfl, fun e' he => congrArg Except.error (Except.error.inj he)⟩
  · exact ⟨rfl, fun e' he => by cases he⟩

/-- One call on consistent tables: consistent tables, the old rows untouched, and no change at all
when it raises. -/
theorem StoreCall.next_spec {t : Tables} (h : t.Consistent) (call : StoreCall) :
    (call.next t).Consistent ∧ RowsKept t (call.next t) ∧
      ∀ e, (call.run.run t).1 = .error e → call.next t = t := by
  cases call with
  | storeMessage createdAt author recipient body clock faults =>
    obtain ⟨herr, hok⟩ := storeMessage_spec t createdAt author recipient body clock faults
    obtain ⟨hnext, herr'⟩ :=
      run_discard (OpenQSP.storeMessage createdAt author recipient body clock faults) t
    simp only [next, run, hnext]
    refine ⟨?_, ?_, fun e he => herr e (herr' e he)⟩
    all_goals rcases hrun : ((OpenQSP.storeMessage createdAt author recipient body clock
      faults).run t).1 with e | sequence
    · rwa [herr e hrun]
    · obtain ⟨message, haccepts, -⟩ := hok sequence hrun
      exact h.accept haccepts
    · rw [herr e hrun]
      exact RowsKept.refl t
    · obtain ⟨message, haccepts, -⟩ := hok sequence hrun
      exact haccepts.rowsKept
  | storeMessageIdempotent createdAt author recipient body idempotencyKey requestHash clock
      faults =>
    obtain ⟨herr, hok⟩ := storeMessageIdempotent_spec h.replayable createdAt author recipient body
      idempotencyKey requestHash clock faults
    obtain ⟨hnext, herr'⟩ := run_discard (OpenQSP.storeMessageIdempotent createdAt author recipient
      body idempotencyKey requestHash clock faults) t
    simp only [next, run, hnext]
    refine ⟨?_, ?_, fun e he => herr e (herr' e he)⟩
    all_goals rcases hrun : ((OpenQSP.storeMessageIdempotent createdAt author recipient body
      idempotencyKey requestHash clock faults).run t).1 with e | result
    · rwa [herr e hrun]
    · exact ((hok result hrun).preserves h).1
    · rw [herr e hrun]
      exact RowsKept.refl t
    · exact ((hok result hrun).preserves h).2

/-- The database after the calls, on a new database. -/
def storeState (calls : List StoreCall) : Tables := calls.foldl StoreCall.next Tables.fresh

theorem consistent_stateAt (calls : List StoreCall) :
    ∀ i ≤ calls.length, (stateAt StoreCall.next Tables.fresh calls i).Consistent :=
  stateAt_invariant Tables.consistent_fresh fun _ _ h => (StoreCall.next_spec h _).1

theorem consistent_storeState (calls : List StoreCall) : (storeState calls).Consistent := by
  have h := consistent_stateAt calls calls.length le_rfl
  rwa [stateAt_length] at h

theorem rowsKept_storeState (calls later : List StoreCall) :
    RowsKept (storeState calls) (storeState (calls ++ later)) := by
  have hconsistent := consistent_stateAt (calls ++ later)
  have hkept := stateAt_rel RowsKept.refl (fun _ _ _ => RowsKept.trans) (i := calls.length)
    (fun k hk _ => (StoreCall.next_spec (hconsistent k hk.le) _).2.1)
    (by rw [List.length_append]; exact Nat.le_add_right _ _) le_rfl
  rwa [stateAt_append le_rfl, stateAt_length, stateAt_length] at hkept

/-! ### What consistency says about the rows -/

namespace Tables

/-- The sequences of the stored messages are exactly those that were handed out. -/
structure SequencesExact (t : Tables) : Prop where
  /-- The mailbox sequences of a recipient are `1, …, n`, and `n` is its high-water value. -/
  mailbox : ∀ r, ∃ n, t.mailboxSequences.get? r = (if n = 0 then none else some n) ∧
    ∀ s, (r, s) ∈ t.messages.keys ↔ 1 ≤ s ∧ s ≤ n
  /-- The API sequences are `1, …, N`, and `N` is the high-water value. -/
  api : ∀ a, (∃ e ∈ t.messages.entries, e.2.apiSequence = a) ↔ 1 ≤ a ∧ a ≤ t.apiMessageSequence
  /-- No two messages share an API sequence. -/
  api_distinct : (t.messages.entries.map fun e => e.2.apiSequence).Nodup
  /-- Within a mailbox both sequences order the messages the same way. -/
  monotone : ∀ e ∈ t.messages.entries, ∀ e' ∈ t.messages.entries, e.1.1 = e'.1.1 →
    e.1.2 < e'.1.2 → e.2.apiSequence < e'.2.apiSequence
  /-- Every idempotency key refers to a message. -/
  references : ∀ e ∈ t.apiIdempotency.entries,
    (e.2.recipient, e.2.mailboxSequence) ∈ t.messages.keys

namespace Consistent

variable {t : Tables}

/-- A message listed later has a larger API sequence and, in the same mailbox, a larger mailbox
sequence. -/
theorem pairwise (h : t.Consistent) : t.messages.entries.Pairwise fun e e' =>
    e.2.apiSequence < e'.2.apiSequence ∧ (e.1.1 = e'.1.1 → e.1.2 < e'.1.2) := by
  have hapi : t.messages.entries.Pairwise fun e e' => e.2.apiSequence < e'.2.apiSequence := by
    rw [← List.pairwise_map (f := fun e : (Str × ℕ) × MessageRow => e.2.apiSequence), h.api]
    exact List.pairwise_lt_range'
  have hmailbox (r : Str) : t.messages.entries.Pairwise fun e e' =>
      e.1.1 = r → e'.1.1 = r → e.1.2 < e'.1.2 := by
    have hr := List.pairwise_lt_range' (s := 1) (n := (t.mailboxSequences.get? r).getD 0)
    rw [← h.mailbox r, List.pairwise_map, List.pairwise_filter] at hr
    simpa using hr
  refine hapi.and (List.pairwise_iff_getElem.mpr fun i j hi hj hij hr => ?_)
  exact List.pairwise_iff_getElem.mp (hmailbox _) i j hi hj hij rfl hr.symm

theorem mem_keys (h : t.Consistent) (r : Str) (s : ℕ) :
    (r, s) ∈ t.messages.keys ↔ 1 ≤ s ∧ s ≤ (t.mailboxSequences.get? r).getD 0 := by
  have hmem : (r, s) ∈ t.messages.keys ↔
      s ∈ (t.messages.entries.filter fun e => e.1.1 = r).map fun e => e.1.2 := by
    simp only [OrderedDict.keys, List.mem_map, List.mem_filter, decide_eq_true_eq]
    constructor
    · rintro ⟨e, he, hk⟩
      exact ⟨e, ⟨he, by rw [hk]⟩, by rw [hk]⟩
    · rintro ⟨e, ⟨he, hr⟩, hs⟩
      exact ⟨e, he, Prod.ext hr hs⟩
  rw [hmem, h.mailbox, List.mem_range'_1]
  omega

theorem sequencesExact (h : t.Consistent) : t.SequencesExact where
  mailbox r := by
    refine ⟨(t.mailboxSequences.get? r).getD 0, ?_, h.mem_keys r⟩
    rcases hget : t.mailboxSequences.get? r with _ | n
    · rfl
    · rw [Option.getD_some, if_neg (h.positive r n hget)]
  api a := by
    have hmem := List.mem_map (l := t.messages.entries) (b := a)
      (f := fun e : (Str × ℕ) × MessageRow => e.2.apiSequence)
    rw [← hmem, h.api, List.mem_range'_1]
    omega
  api_distinct := by
    rw [h.api]
    exact List.nodup_range'
  monotone e he e' he' hr hlt := by
    obtain ⟨i, hi, rfl⟩ := List.getElem_of_mem he
    obtain ⟨j, hj, rfl⟩ := List.getElem_of_mem he'
    rcases Nat.lt_trichotomy i j with hij | rfl | hji
    · exact (List.pairwise_iff_getElem.mp h.pairwise i j hi hj hij).1
    · exact absurd hlt (lt_irrefl _)
    · have := (List.pairwise_iff_getElem.mp h.pairwise j i hj hi hji).2 hr.symm
      omega
  references := h.references

end Consistent

end Tables

/-- **The message store.** In every state of every run of the store, with any failures: both
sequences are contiguous and agree with their high-water rows, mailbox order is API order, every
idempotency key refers to a message, no later call touches the rows, and a call that raises leaves
the whole database as it is. -/
theorem messageStore_sequences (calls : List StoreCall) :
    (storeState calls).SequencesExact ∧
    (∀ later, RowsKept (storeState calls) (storeState (calls ++ later))) ∧
    ∀ (call : StoreCall) (e : PyError), (call.run.run (storeState calls)).1 = .error e →
      (call.run.run (storeState calls)).2 = storeState calls :=
  ⟨(consistent_storeState calls).sequencesExact, rowsKept_storeState calls,
    fun call e he => (StoreCall.next_spec (consistent_storeState calls) call).2.2 e he⟩

end OpenQSP
