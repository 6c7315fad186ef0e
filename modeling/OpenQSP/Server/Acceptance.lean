import OpenQSP.Protocol.RoundTrip
import OpenQSP.Server.Core
import OpenQSP.Storage.Conversations

/-!
# Idempotent acceptance

`ServerCore.send_message` with its listeners: a message is validated, stored, and, when this call
created it, announced once to every listener, whatever the listeners raise.

A listener is arbitrary code on the database and on an outside state of its own; it may write
delivery states, as the APRS transport does, but not the message tables. Notifications are kept in
a history, each with the database the listener could see.

One call has one of three effects (`SendEffect`): it creates a message and announces it, it finds
the message of its key and changes nothing, or it raises and changes nothing. The statement about
runs combines the effects of the calls with the persistence of idempotency keys.

## Main definitions

* `Listener`, `Node`, `SendCall`, `sendMessage`
* `hear` — what the listeners do
* `SendEffect` — what one call does

## Main results

* `sendMessage_effect` — every call has an effect
* `sendMessage_known` — what a call with a known key returns
* **`sendMessage_idempotent`** — runs of calls by any authors, keyed and unkeyed
-/

namespace OpenQSP

open Py

/-! ### Listeners -/

/-- The message tables are the same. -/
def SameMessages (t t' : Tables) : Prop :=
  t'.mailboxSequences = t.mailboxSequences ∧ t'.apiMessageSequence = t.apiMessageSequence ∧
    t'.messages = t.messages ∧ t'.apiIdempotency = t.apiIdempotency

theorem SameMessages.refl (t : Tables) : SameMessages t t := ⟨rfl, rfl, rfl, rfl⟩

theorem SameMessages.trans {t t' t'' : Tables} (h : SameMessages t t')
    (h' : SameMessages t' t'') : SameMessages t t'' :=
  ⟨h'.1.trans h.1, h'.2.1.trans h.2.1, h'.2.2.1.trans h.2.2.1, h'.2.2.2.trans h.2.2.2⟩

/-- Consistency is about the message tables. -/
theorem Tables.Consistent.of_sameMessages {t t' : Tables} (h : t.Consistent)
    (hsame : SameMessages t t') : t'.Consistent := by
  obtain ⟨hmailbox, hapi, hmessages, hkeys⟩ := hsame
  constructor
  · rw [hmessages, hapi]; exact h.api
  · rw [hmessages, hmailbox]; exact h.mailbox
  · rw [hmailbox]; exact h.positive
  · rw [hkeys, hmessages]; exact h.references
  · rw [hmessages]; exact h.readable
  · rw [hmessages]; exact h.recipients_encodable
  · rw [hmessages]; exact h.authors_encodable
  · rw [hkeys]; exact h.keys_encodable

/-- A message listener: code that may raise, on the database and an outside state `ω`. -/
structure Listener (ω : Type) where
  notify : Message → Method PyError (Tables × ω) Unit
  /-- It does not write the message tables. -/
  keeps : ∀ event, (notify event).Moves fun s s' => SameMessages s.1 s'.1

/-- One call of a listener: which one, with what, and the database at that time. -/
structure Notification where
  listener : ℕ
  event : Message
  tables : Tables

/-- A node: its database, the state of its listeners, and the history of their calls. -/
structure Node (ω : Type) where
  tables : Tables
  outside : ω
  /-- The calls of listeners so far. No code reads it. -/
  notifications : List Notification

/-- The arguments of one call of `send_message`, and the server's clock at that time. -/
structure SendCall where
  author : Str
  recipient : Str
  body : Str
  createdAt : ℤ
  idempotencyKey : Option Str
  requestHash : Str
  clock : ℤ

/-- The arguments pass the validation of `send_message`. -/
def SendCall.Valid (call : SendCall) : Prop :=
  validateSend call.author call.recipient call.body call.createdAt = .ok ()

/-- `acceptMessage` of a call. -/
def SendCall.accept (call : SendCall) : Method PyError Tables
    (MessageAcceptance × Option Message) :=
  acceptMessage call.author call.recipient call.body call.createdAt call.idempotencyKey
    call.requestHash call.clock

section

variable {ω : Type}

/-- Run a method of the database on the node. -/
def Node.onTables {α : Type} (m : Method PyError Tables α) : Method PyError (Node ω) α :=
  ⟨fun node => ((m.run node.tables).1, { node with tables := (m.run node.tables).2 })⟩

/-- Call one listener. An exception it raises is logged and dropped. -/
def Node.call (index : ℕ) (listener : Listener ω) (event : Message) (node : Node ω) : Node ω :=
  let after := ((listener.notify event).run (node.tables, node.outside)).2
  ⟨after.1, after.2, node.notifications ++ [⟨index, event, node.tables⟩]⟩

/-- Call the listeners in their order, counting from `index`. -/
def Node.publish : ℕ → List (Listener ω) → Message → Node ω → Node ω
  | _, [], _, node => node
  | index, listener :: rest, event, node =>
    publish (index + 1) rest event (node.call index listener event)

/-- `ServerCore.send_message` -/
def sendMessage (listeners : List (Listener ω)) (call : SendCall) :
    Method PyError (Node ω) MessageAcceptance := do
  let (acceptance, event) ← Node.onTables call.accept
  match event with
  | none => return acceptance
  | some event => do
    modify (Node.publish 0 listeners event)
    return acceptance

end

/-! ### Accepting one message -/

theorem callsignBytes_encodable {value : Str} {field : String} {data : Bytes}
    (h : callsignBytes value field = .ok data) : (encodeUtf8 value).isSome := by
  rw [(textBytes_eq_ok (callsignBytes_eq_ok h).1).1]
  rfl

theorem validateCallsign_encodable {value value' : Str} {field : String}
    (h : validateCallsign value field = .ok value') : (encodeUtf8 value).isSome := by
  obtain ⟨data, hdata, -⟩ := bind_eq_ok.mp h
  exact callsignBytes_encodable hdata

/-- Validation does not change a callsign. -/
theorem validateCallsign_eq {value value' : Str} {field : String}
    (h : validateCallsign value field = .ok value') : value' = value := by
  obtain ⟨_, -, h⟩ := bind_eq_ok.mp h
  exact (Except.ok.inj h).symm

theorem validateSend_encodable {author recipient body : Str} {createdAt : ℤ}
    (h : validateSend author recipient body createdAt = .ok ()) :
    (encodeUtf8 author).isSome ∧ (encodeUtf8 recipient).isSome := by
  obtain ⟨_, hauthor, h⟩ := bind_eq_ok.mp h
  obtain ⟨_, hrecipient, -⟩ := bind_eq_ok.mp h
  exact ⟨validateCallsign_encodable hauthor, validateCallsign_encodable hrecipient⟩

section Tables

open Tables

variable {t t' : Tables} {author recipient body requestHash : Str} {createdAt clock : ℤ}

/-- In consistent tables a message that is there has an event. -/
theorem messageEvent_ok (h : t.Consistent) {e : (Str × ℕ) × MessageRow}
    (he : e ∈ t.messages.entries) {message : StoredMessage}
      (hmessage : storedMessage e = .ok message) :
    ∃ n : ℕ, messageEvent message t = .ok ⟨message.sequence, n, message.createdAt, message.author,
      message.recipient, message.body⟩ := by
  obtain ⟨i, -, hnumber, -⟩ := conversationSequence_grows (Grows.refl t) h h he hmessage
  refine ⟨i + 1, ?_⟩
  rw [messageEvent, hnumber]
  rfl

/-- The message that was just accepted is there. -/
theorem Accepts.stored {message : StoredMessage}
    (h : Accepts t createdAt author recipient body t' message) :
    ∃ e ∈ t'.messages.entries, t'.messages.entries = t.messages.entries ++ [e] ∧
      e.1 = (recipient, message.sequence) ∧ storedMessage e = .ok message := by
  obtain ⟨hle, -, -, -, hkey, ⟨-, hcreated⟩, hmessage, data, hdata, rfl⟩ := h
  have hentries := OrderedDict.entries_set_of_notMem hkey
    (t.nextRow author data message.createdAt message.acceptedAt)
  have hseq : message.sequence = t.nextSequence recipient :=
    congrArg StoredMessage.sequence hmessage
  refine ⟨((recipient, t.nextSequence recipient),
    t.nextRow author data message.createdAt message.acceptedAt), ?_, hentries, by rw [hseq], ?_⟩
  · show _ ∈ (OrderedDict.set _ _ _).entries
    rw [hentries]
    exact List.mem_append_right _ (List.mem_singleton_self _)
  · refine (storedMessage_of_encodeUtf8 hdata (Nat.le_add_left 1 _) hle hcreated).trans ?_
    exact congrArg Except.ok hmessage.symm

/-- The row just inserted is the one a lookup under its key finds. -/
theorem getMessage_of_accepts {message : StoredMessage}
    (h : Accepts t createdAt author recipient body t' message) :
    getMessage recipient message.sequence t' = .ok (some message) := by
  obtain ⟨e, -, hentries, hkey, hstored⟩ := h.stored
  obtain ⟨-, hmax, -⟩ := storedMessage_eq_ok hstored
  rw [hkey] at hmax
  have hold : t.messages.entries.find? (fun e => e.1.1 = recipient &&
      (e.1.2 : ℤ) = (message.sequence : ℤ)) = none := by
    refine List.find?_eq_none.mpr fun e' he' => ?_
    have hseq : message.sequence = t.nextSequence recipient :=
      congrArg StoredMessage.sequence h.message_eq
    intro hcond
    simp only [Bool.and_eq_true, decide_eq_true_eq, Nat.cast_inj] at hcond
    refine h.key_new ?_
    rw [← hseq, ← hcond.1, ← hcond.2]
    exact OrderedDict.mem_keys_of_mem (v := e'.2) he'
  have hfind : t'.messages.entries.find? (fun e => e.1.1 = recipient &&
      (e.1.2 : ℤ) = (message.sequence : ℤ)) = some e := by
    rw [hentries, List.find?_append, hold]
    simp [hkey]
  simp only [getMessage, messageAt, bindText_of_isSome h.recipient_encodable,
    bindInteger_of_le hmax, ok_bind, pure_eq_ok, hfind, hstored]

/-- A created message is the last row, and the new tables are consistent. -/
theorem KeyedOutcome.stored {idempotencyKey : Option Str} {message : StoredMessage}
    (h : KeyedOutcome t createdAt author recipient body requestHash idempotencyKey (message, true)
      t') :
    (∃ e ∈ t'.messages.entries, t'.messages.entries = t.messages.entries ++ [e] ∧
      storedMessage e = .ok message) ∧
    message.author = author ∧ message.recipient = recipient ∧ message.body = body ∧
      (message.createdAt : ℤ) = createdAt := by
  cases h with
  | unkeyed accepts =>
    obtain ⟨e, he, hentries, -, hstored⟩ := accepts.stored
    rw [accepts.message_eq]
    exact ⟨⟨e, he, hentries, accepts.message_eq ▸ hstored⟩, rfl, rfl, rfl, accepts.created.1⟩
  | created _ accepts records =>
    obtain ⟨e, he, hentries, -, hstored⟩ := accepts.stored
    obtain ⟨-, -, -, rfl⟩ := records
    rw [accepts.message_eq]
    exact ⟨⟨e, he, hentries, accepts.message_eq ▸ hstored⟩, rfl, rfl, rfl, accepts.created.1⟩

/-- A message that was not created was there before, and nothing changed. -/
theorem KeyedOutcome.replayed_stored {idempotencyKey : Option Str} {message : StoredMessage}
    (h : KeyedOutcome t createdAt author recipient body requestHash idempotencyKey (message, false)
      t') :
    t' = t ∧ ∃ e ∈ t.messages.entries, storedMessage e = .ok message := by
  cases h with
  | replayed _ _ mem _ stored => exact ⟨rfl, _, mem, stored⟩

/-- Storing and reading back either raises and changes nothing, or has the outcome of a keyed
call. -/
theorem storeAccepted_spec (h : t.Consistent) (author recipient body : Str) (createdAt : ℤ)
    (idempotencyKey : Option Str) (requestHash : Str) (clock : ℤ) :
    (∀ e, ((storeAccepted author recipient body createdAt idempotencyKey requestHash clock).run
        t).1 = .error e →
      ((storeAccepted author recipient body createdAt idempotencyKey requestHash clock).run t).2 =
        t) ∧
    ∀ acceptance, ((storeAccepted author recipient body createdAt idempotencyKey requestHash
        clock).run t).1 = .ok acceptance →
      KeyedOutcome t createdAt author recipient body requestHash idempotencyKey
        (acceptance.message, acceptance.created)
        ((storeAccepted author recipient body createdAt idempotencyKey requestHash clock).run
          t).2 := by
  cases idempotencyKey with
  | none =>
    obtain ⟨herr, hok⟩ := storeMessage_spec t createdAt author recipient body clock []
    simp only [storeAccepted]
    rw [Method.run_bind]
    rcases hrun : (storeMessage createdAt author recipient body clock []).run t with
      ⟨e | sequence, t₁⟩
    · rw [hrun] at herr
      exact ⟨fun _ _ => herr e rfl, fun _ h => (nomatch h)⟩
    · rw [hrun] at hok
      obtain ⟨message, haccepts, rfl⟩ := hok sequence rfl
      have hget := getMessage_of_accepts haccepts
      simp only [Method.run_get_bind, hget]
      exact ⟨fun _ h => (nomatch h), fun acceptance hacc => by
        obtain rfl := Except.ok.inj hacc
        exact .unkeyed haccepts⟩
  | some key =>
    obtain ⟨herr, hok⟩ := storeMessageIdempotent_spec h.replayable createdAt author recipient body
      (some key)
      requestHash clock []
    simp only [storeAccepted]
    rw [Method.run_bind]
    rcases hrun : (storeMessageIdempotent createdAt author recipient body (some key) requestHash
      clock []).run t with ⟨e | ⟨message, created⟩, t₁⟩
    · rw [hrun] at herr
      exact ⟨fun _ _ => herr e rfl, fun _ h => (nomatch h)⟩
    · rw [hrun] at hok
      exact ⟨fun _ h => (nomatch h), fun acceptance hacc => by
        obtain rfl := Except.ok.inj hacc
        exact hok _ rfl⟩

/-- What a call of `acceptMessage` that returned has done. -/
def AcceptOutcome (t : Tables) (call : SendCall) (acceptance : MessageAcceptance)
    (event : Option Message) (t' : Tables) : Prop :=
  KeyedOutcome t call.createdAt call.author call.recipient call.body call.requestHash
      call.idempotencyKey (acceptance.message, acceptance.created) t' ∧
    (acceptance.created = false → event = none) ∧
    (acceptance.created = true → ∃ n : ℕ, event = some ⟨acceptance.message.sequence, n,
      acceptance.message.createdAt, acceptance.message.author, acceptance.message.recipient,
      acceptance.message.body⟩)

/-- A call of `acceptMessage` raises and changes nothing, or returns and has an outcome. -/
theorem SendCall.accept_spec (h : t.Consistent) (call : SendCall) :
    (∀ e, (call.accept.run t).1 = .error e → (call.accept.run t).2 = t) ∧
    ∀ result, (call.accept.run t).1 = .ok result →
      AcceptOutcome t call result.1 result.2 (call.accept.run t).2 := by
  rw [SendCall.accept, acceptMessage]
  rcases hvalid : validateSend call.author call.recipient call.body call.createdAt with e | _
  · exact ⟨fun _ _ => rfl, fun _ h => (nomatch h)⟩
  · obtain ⟨herr, hok⟩ := storeAccepted_spec h call.author call.recipient call.body call.createdAt
      call.idempotencyKey call.requestHash call.clock
    rw [Method.run_ofExcept_ok_bind, Method.run_bind]
    rcases hrun : (storeAccepted call.author call.recipient call.body call.createdAt
      call.idempotencyKey call.requestHash call.clock).run t with ⟨e | ⟨message, created⟩, t₁⟩
    · rw [hrun] at herr
      exact ⟨fun _ _ => herr e rfl, fun _ h => (nomatch h)⟩
    · rw [hrun] at hok
      have houtcome := hok _ rfl
      cases created with
      | false =>
        simp only [Bool.false_eq_true, if_false]
        exact ⟨fun _ h => (nomatch h), fun result hresult => by
          obtain rfl := Except.ok.inj hresult
          exact ⟨houtcome, fun _ => rfl, fun h => (nomatch h)⟩⟩
      | true =>
        obtain ⟨⟨e, he, -, hstored⟩, -⟩ := houtcome.stored
        obtain ⟨n, hevent⟩ := messageEvent_ok (houtcome.preserves h).1 he hstored
        simp only [if_true, Method.run_get_bind, hevent]
        exact ⟨fun _ h => (nomatch h), fun result hresult => by
          obtain rfl := Except.ok.inj hresult
          exact ⟨houtcome, fun h => (nomatch h), fun _ => ⟨n, rfl⟩⟩⟩

end Tables

/-! ### Telling the listeners -/

section Listeners

variable {ω : Type}

/-- Every listener is called once, in order, and the message tables stay as they are. -/
theorem Node.publish_spec (listeners : List (Listener ω)) (event : Message) (index : ℕ)
    (node : Node ω) :
    SameMessages node.tables (Node.publish index listeners event node).tables ∧
    ∃ new, (Node.publish index listeners event node).notifications = node.notifications ++ new ∧
      new.map Notification.listener = List.range' index listeners.length ∧
      ∀ call ∈ new, call.event = event ∧ SameMessages node.tables call.tables := by
  induction listeners generalizing index node with
  | nil => exact ⟨SameMessages.refl _, [], (List.append_nil _).symm, rfl, by simp⟩
  | cons listener rest ih =>
    obtain ⟨hsame, new, hnew, hindex, hcalls⟩ := ih (index + 1) (node.call index listener event)
    have hfirst : SameMessages node.tables (node.call index listener event).tables :=
      listener.keeps event (node.tables, node.outside)
    refine ⟨hfirst.trans hsame, ⟨index, event, node.tables⟩ :: new, ?_, ?_, ?_⟩
    · rw [Node.publish, hnew, Node.call, List.append_assoc]
      rfl
    · rw [List.map_cons, hindex, List.length_cons, List.range'_succ]
    · intro call hcall
      rcases List.mem_cons.mp hcall with rfl | hcall
      · exact ⟨rfl, SameMessages.refl _⟩
      · exact ⟨(hcalls call hcall).1, hfirst.trans (hcalls call hcall).2⟩

/-- What the listeners make of the database and the state outside, one after the other. -/
def hear (listeners : List (Listener ω)) (event : Message) (world : Tables × ω) : Tables × ω :=
  listeners.foldl (fun world listener => ((listener.notify event).run world).2) world

theorem Node.publish_hear (listeners : List (Listener ω)) (event : Message) (index : ℕ)
    (node : Node ω) :
    ((Node.publish index listeners event node).tables,
      (Node.publish index listeners event node).outside) =
        hear listeners event (node.tables, node.outside) := by
  induction listeners generalizing index node with
  | nil => rfl
  | cons listener rest ih => exact ih (index + 1) (node.call index listener event)

/-- What one call of `send_message` does. -/
inductive SendEffect (listeners : List (Listener ω)) (node : Node ω) (call : SendCall) :
    Except PyError MessageAcceptance → Node ω → Prop
  /-- One new message, with the contents of the call; every listener was called once, in order,
  with its event, when the message was already in the database, and what the listeners did is
  what the call leaves. -/
  | created {message : StoredMessage} {row : (Str × ℕ) × MessageRow} {conversationSequence : ℕ}
      {event : Message} {kept : Tables} {new : List Notification} {node' : Node ω}
      (rows : node'.tables.messages.entries = node.tables.messages.entries ++ [row])
      (stored : storedMessage row = .ok message)
      (contents : message.author = call.author ∧ message.recipient = call.recipient ∧
        message.body = call.body ∧ (message.createdAt : ℤ) = call.createdAt)
      (notifications : node'.notifications = node.notifications ++ new)
      (once : new.map Notification.listener = List.range listeners.length)
      (event_eq : event = ⟨message.sequence, conversationSequence, message.createdAt,
        message.author, message.recipient, message.body⟩)
      (announced : ∀ notification ∈ new, notification.event = event ∧
        row ∈ notification.tables.messages.entries)
      (heard : kept.messages = node'.tables.messages ∧
        (node'.tables, node'.outside) = hear listeners event (kept, node.outside)) :
      SendEffect listeners node call (.ok ⟨message, true⟩) node'
  /-- A stored message, and no change. -/
  | replayed {message : StoredMessage} {row : (Str × ℕ) × MessageRow}
      (rows : row ∈ node.tables.messages.entries) (stored : storedMessage row = .ok message) :
      SendEffect listeners node call (.ok ⟨message, false⟩) node
  /-- An exception, and no change. -/
  | rejected {e : PyError} : SendEffect listeners node call (.error e) node

/-- The tables after a call that returned, seen through the listeners. -/
theorem sendMessage_run (listeners : List (Listener ω)) (call : SendCall) (node : Node ω) :
    (sendMessage listeners call).run node = match call.accept.run node.tables with
      | (.error e, t) => (.error e, { node with tables := t })
      | (.ok (acceptance, none), t) => (.ok acceptance, { node with tables := t })
      | (.ok (acceptance, some event), t) =>
        (.ok acceptance, Node.publish 0 listeners event { node with tables := t }) := by
  have hrun : (Node.onTables call.accept : Method PyError (Node ω) _).run node =
      ((call.accept.run node.tables).1, { node with tables := (call.accept.run node.tables).2 }) :=
    rfl
  rw [sendMessage, Method.run_bind, hrun]
  rcases call.accept.run node.tables with ⟨e | ⟨acceptance, _ | event⟩, t⟩
  · rfl
  · rfl
  · rfl

/-- **One call.** On consistent tables every call of `send_message` creates one message and tells
every listener once, or changes nothing. -/
theorem sendMessage_effect (listeners : List (Listener ω)) (call : SendCall) {node : Node ω}
    (h : node.tables.Consistent) :
    SendEffect listeners node call ((sendMessage listeners call).run node).1
        ((sendMessage listeners call).run node).2 ∧
      ((sendMessage listeners call).run node).2.tables.Consistent ∧
      RowsKept node.tables ((sendMessage listeners call).run node).2.tables := by
  obtain ⟨herr, hok⟩ := call.accept_spec h
  rw [sendMessage_run]
  rcases hrun : call.accept.run node.tables with ⟨e | ⟨⟨message, created⟩, event⟩, t⟩
  · rw [hrun] at herr
    obtain rfl : t = node.tables := herr e rfl
    exact ⟨.rejected, h, RowsKept.refl _⟩
  · rw [hrun] at hok
    obtain ⟨houtcome, hnone, hsome⟩ := hok _ rfl
    obtain ⟨hconsistent, hkept⟩ := houtcome.preserves h
    dsimp only at houtcome hnone hsome hconsistent hkept
    cases created with
    | false =>
      obtain rfl := hnone rfl
      obtain ⟨rfl, e, he, hstored⟩ := houtcome.replayed_stored
      exact ⟨.replayed he hstored, hconsistent, hkept⟩
    | true =>
      obtain ⟨n, rfl⟩ := hsome rfl
      obtain ⟨⟨e, he, hentries, hstored⟩, hcontents⟩ := houtcome.stored
      obtain ⟨hsame, new, hnew, hindex, hcalls⟩ := Node.publish_spec listeners
        ⟨message.sequence, n, message.createdAt, message.author, message.recipient, message.body⟩ 0
        { node with tables := t }
      refine ⟨.created ?_ hstored hcontents hnew (by rw [hindex, List.range_eq_range']) rfl
        (fun x hx => ⟨(hcalls x hx).1, ?_⟩) ⟨hsame.2.2.1.symm, Node.publish_hear listeners _ 0 _⟩,
        hconsistent.of_sameMessages hsame, ?_⟩
      · rw [hsame.2.2.1]
        exact hentries
      · rw [(hcalls x hx).2.2.2.1]
        exact he
      · rw [RowsKept, hsame.2.2.1, hsame.2.2.2]
        exact hkept

end Listeners

/-! ### Keys across a run -/

/-- The key of `author` is known, was recorded with `requestHash`, and refers to `message`. -/
def KeyHolds (t : Tables) (author key requestHash : Str) (message : StoredMessage) : Prop :=
  ∃ old, t.apiIdempotency.get? (author, str "send", key) = some old ∧
    old.requestHash = requestHash ∧ ∃ e ∈ t.messages.entries,
      e.1 = (old.recipient, old.mailboxSequence) ∧ storedMessage e = .ok message

/-- A known key stays known, with the same message. -/
theorem KeyHolds.mono {t t' : Tables} {author key requestHash : Str} {message : StoredMessage}
    (h : KeyHolds t author key requestHash message) (hkept : RowsKept t t') :
    KeyHolds t' author key requestHash message := by
  obtain ⟨old, hold, hhash, e, he, hkey, hstored⟩ := h
  refine ⟨old, ?_, hhash, e, hkept.1.subset he, hkey, hstored⟩
  exact OrderedDict.get?_eq_some_iff.mpr
    (hkept.2.subset (OrderedDict.get?_eq_some_iff.mp hold))

/-- A call with a key that returned leaves the key known, with the message it returned. -/
theorem KeyedOutcome.keyHolds {t t' : Tables} {createdAt : ℤ}
    {author recipient body requestHash key : Str} {result : StoredMessage × Bool}
    (h : KeyedOutcome t createdAt author recipient body requestHash (some key) result t') :
    KeyHolds t' author key requestHash result.1 := by
  cases h with
  | created _ accepts records =>
    obtain ⟨e, he, -, hkey, hstored⟩ := accepts.stored
    obtain ⟨-, -, -, rfl⟩ := records
    exact ⟨_, OrderedDict.get?_set_self _ _ _, rfl, e, he, hkey, hstored⟩
  | replayed known hash mem ref stored => exact ⟨_, known, hash, _, mem, ref, stored⟩

/-- An unknown key is not replayed. -/
theorem KeyedOutcome.created_of_unknown {t t' : Tables} {createdAt : ℤ}
    {author recipient body requestHash key : Str} {result : StoredMessage × Bool}
    (h : KeyedOutcome t createdAt author recipient body requestHash (some key) result t')
    (hnone : t.apiIdempotency.get? (author, str "send", key) = none) : result.2 = true := by
  cases h with
  | created => rfl
  | replayed known => exact absurd (hnone.symm.trans known) (by simp)

/-- Only the key of the call becomes known. -/
theorem KeyedOutcome.newKey {t t' : Tables} {createdAt : ℤ}
    {author author' recipient body requestHash key : Str} {idempotencyKey : Option Str}
    {result : StoredMessage × Bool} {old : IdempotencyRow}
    (h : KeyedOutcome t createdAt author recipient body requestHash idempotencyKey result t')
    (hnone : t.apiIdempotency.get? (author', str "send", key) = none)
    (hold : t'.apiIdempotency.get? (author', str "send", key) = some old) :
    author = author' ∧ idempotencyKey = some key := by
  cases h with
  | unkeyed accepts =>
    obtain ⟨_, -, rfl⟩ := accepts.tables_eq
    exact absurd (hnone.symm.trans hold) (by simp)
  | created _ accepts records =>
    obtain ⟨_, -, rfl⟩ := accepts.tables_eq
    obtain ⟨-, -, -, rfl⟩ := records
    have hget := hold
    rw [Tables.record, OrderedDict.get?_set] at hget
    split at hget
    · next hkeys =>
      rw [Prod.mk.injEq, Prod.mk.injEq] at hkeys
      rw [hkeys.1, hkeys.2.2]
      exact ⟨rfl, rfl⟩
    · exact absurd (hnone.symm.trans hget) (by simp)
  | replayed => exact absurd (hnone.symm.trans hold) (by simp)

section Known

variable {ω : Type} {listeners : List (Listener ω)} {node : Node ω} {call : SendCall}

theorem sendMessage_keyHolds (h : node.tables.Consistent) {key : Str}
    (hkey : call.idempotencyKey = some key) {acceptance : MessageAcceptance}
    (hrun : ((sendMessage listeners call).run node).1 = .ok acceptance) :
    KeyHolds ((sendMessage listeners call).run node).2.tables call.author key call.requestHash
      acceptance.message := by
  obtain ⟨-, hok⟩ := call.accept_spec h
  rw [sendMessage_run] at hrun ⊢
  rcases haccept : call.accept.run node.tables with ⟨e | ⟨acceptance', _ | event⟩, t⟩
  · rw [haccept] at hrun
    cases hrun
  · rw [haccept] at hrun hok
    obtain rfl := Except.ok.inj hrun
    have houtcome := (hok _ rfl).1
    rw [hkey] at houtcome
    exact houtcome.keyHolds
  · rw [haccept] at hrun hok
    obtain rfl := Except.ok.inj hrun
    have houtcome := (hok _ rfl).1
    rw [hkey] at houtcome
    obtain ⟨hsame, -⟩ := Node.publish_spec listeners event 0 { node with tables := t }
    have hholds := houtcome.keyHolds
    rw [KeyHolds]
    rw [hsame.2.2.1, hsame.2.2.2]
    exact hholds

/-- **A known key.** A valid call with a known key returns the message of the key when its hash
agrees, and raises a conflict when it does not; either way nothing changes. -/
theorem sendMessage_known (listeners : List (Listener ω)) (h : node.tables.Consistent)
    (hvalid : call.Valid) {key : Str}
    (hkey : call.idempotencyKey = some key) {requestHash : Str} {message : StoredMessage}
    (hholds : KeyHolds node.tables call.author key requestHash message) :
    (sendMessage listeners call).run node =
      if call.requestHash = requestHash then (.ok ⟨message, false⟩, node)
      else (.error ⟨.idempotencyConflictError, "key reused with another request"⟩, node) := by
  obtain ⟨old, hold, rfl, e, he, href, hstored⟩ := hholds
  have hfind : node.tables.messages.entries.find? (fun e => e.1.1 = old.recipient &&
      (e.1.2 : ℤ) = (old.mailboxSequence : ℤ)) = some e := by
    obtain ⟨e', he', href', hfind, -⟩ := h.replayable.find?_reference hold
    rw [hfind, Option.some.injEq]
    have hget := OrderedDict.get?_eq_some_iff.mpr (show (e.1, e.2) ∈ _ from he)
    have hget' := OrderedDict.get?_eq_some_iff.mpr (show (e'.1, e'.2) ∈ _ from he')
    rw [href'] at hget'
    rw [href, hget'] at hget
    exact Prod.ext (href'.trans href.symm) (Option.some.inj hget)
  have hknown : (storeMessageIdempotent call.createdAt call.author call.recipient call.body
    (some key)
      call.requestHash call.clock []).run node.tables = _ :=
    storeMessageIdempotent_known h (validateSend_encodable hvalid).1 hold
  rw [hfind, storedMessage?, hstored] at hknown
  have haccept : call.accept.run node.tables =
      if call.requestHash = old.requestHash then (.ok (⟨message, false⟩, none), node.tables)
      else (.error ⟨.idempotencyConflictError, "key reused with another request"⟩,
        node.tables) := by
    have hvalid' : validateSend call.author call.recipient call.body call.createdAt = .ok () :=
      hvalid
    rw [SendCall.accept, acceptMessage, hvalid', Method.run_ofExcept_ok_bind, hkey, storeAccepted,
      Method.run_bind, Method.run_bind, hknown]
    by_cases hhash : old.requestHash = call.requestHash
    · rw [if_pos hhash, if_pos hhash.symm]
      rfl
    · rw [if_neg hhash, if_neg (Ne.symm hhash)]
  rw [sendMessage_run, haccept]
  by_cases hhash : call.requestHash = old.requestHash
  · rw [if_pos hhash, if_pos hhash]
  · rw [if_neg hhash, if_neg hhash]

/-- The first call of a key that returns creates the message: an unknown key is never replayed. -/
theorem sendMessage_unknown (h : node.tables.Consistent) {key : Str}
    (hkey : call.idempotencyKey = some key)
    (hnone : node.tables.apiIdempotency.get? (call.author, str "send", key) = none)
    {acceptance : MessageAcceptance}
    (hrun : ((sendMessage listeners call).run node).1 = .ok acceptance) :
    acceptance.created = true := by
  obtain ⟨-, hok⟩ := call.accept_spec h
  rw [sendMessage_run] at hrun
  have hcreated : ∀ result, (call.accept.run node.tables).1 = .ok result →
      result.1.created = true := by
    rintro ⟨⟨message, created⟩, event⟩ hresult
    have houtcome := (hok _ hresult).1
    rw [hkey] at houtcome
    exact houtcome.created_of_unknown hnone
  rcases haccept : call.accept.run node.tables with ⟨e | ⟨acceptance', _ | event⟩, t⟩
  · rw [haccept] at hrun
    cases hrun
  all_goals
    rw [haccept] at hrun
    obtain rfl := Except.ok.inj hrun
    exact hcreated _ (by rw [haccept])

/-- A call makes no other key known than its own, and only when it returns. -/
theorem sendMessage_newKey (h : node.tables.Consistent) {author key : Str} {old : IdempotencyRow}
    (hnone : node.tables.apiIdempotency.get? (author, str "send", key) = none)
    (hold : ((sendMessage listeners call).run node).2.tables.apiIdempotency.get?
      (author, str "send", key) = some old) :
    call.author = author ∧ call.idempotencyKey = some key ∧
      ∃ acceptance, ((sendMessage listeners call).run node).1 = .ok acceptance := by
  obtain ⟨herr, hok⟩ := call.accept_spec h
  have hnew : ∀ result, (call.accept.run node.tables).1 = .ok result →
      (call.accept.run node.tables).2.apiIdempotency.get? (author, str "send", key) = some old →
      call.author = author ∧ call.idempotencyKey = some key := by
    intro result hresult hget
    have houtcome := (hok _ hresult).1
    generalize (call.accept.run node.tables).2 = t at houtcome hget
    exact houtcome.newKey hnone hget
  rw [sendMessage_run] at hold ⊢
  rcases haccept : call.accept.run node.tables with ⟨e | ⟨acceptance, _ | event⟩, t⟩
  · rw [haccept] at hold herr
    have hsame : t = node.tables := herr e rfl
    rw [hsame] at hold
    exact absurd (hnone.symm.trans hold) (by simp)
  · rw [haccept] at hold hnew
    obtain ⟨hauthor, hkey⟩ := hnew _ rfl hold
    exact ⟨hauthor, hkey, acceptance, rfl⟩
  · rw [haccept] at hold hnew
    obtain ⟨hsame, -⟩ := Node.publish_spec listeners event 0 { node with tables := t }
    dsimp only at hold
    rw [hsame.2.2.2] at hold
    obtain ⟨hauthor, hkey⟩ := hnew _ rfl hold
    exact ⟨hauthor, hkey, acceptance, rfl⟩

end Known

/-! ### Runs -/

section Runs

variable {ω : Type} (listeners : List (Listener ω)) (outside : ω) (calls : List SendCall)

/-- The node after the first `i` calls, starting from a new database. -/
def nodeAt (i : ℕ) : Node ω :=
  stateAt (fun node call => ((sendMessage listeners call).run node).2)
    ⟨Tables.fresh, outside, []⟩ calls i

/-- What call `i` returned or raised. -/
def outcomeAt (i : ℕ) (h : i < calls.length) : Except PyError MessageAcceptance :=
  ((sendMessage listeners calls[i]).run (nodeAt listeners outside calls i)).1

variable {listeners outside calls}

theorem nodeAt_succ {i : ℕ} (h : i < calls.length) :
    nodeAt listeners outside calls (i + 1) =
      ((sendMessage listeners calls[i]).run (nodeAt listeners outside calls i)).2 :=
  stateAt_succ h

theorem consistent_nodeAt :
    ∀ i ≤ calls.length, (nodeAt listeners outside calls i).tables.Consistent :=
  stateAt_invariant (I := fun node : Node ω => node.tables.Consistent) Tables.consistent_fresh
    fun _ _ h => (sendMessage_effect listeners _ h).2.1

theorem rowsKept_nodeAt {i j : ℕ} (hij : i ≤ j) (hj : j ≤ calls.length) :
    RowsKept (nodeAt listeners outside calls i).tables (nodeAt listeners outside calls j).tables :=
  stateAt_rel (R := fun node node' : Node ω => RowsKept node.tables node'.tables)
    (fun _ => RowsKept.refl _) (fun _ _ _ => RowsKept.trans)
    (fun k hk _ => (sendMessage_effect listeners _ (consistent_nodeAt k hk.le)).2.2) hij hj

/-- A known key was recorded by an earlier call that returned. -/
theorem exists_call_of_known {author key : Str} : ∀ i ≤ calls.length, ∀ old,
    (nodeAt listeners outside calls i).tables.apiIdempotency.get? (author, str "send", key) =
      some old →
    ∃ (k : ℕ) (hk : k < calls.length), k < i ∧ calls[k].author = author ∧
      calls[k].idempotencyKey = some key ∧
      ∃ acceptance, outcomeAt listeners outside calls k hk = .ok acceptance := by
  intro i
  induction i with
  | zero => exact fun _ old hold => by cases hold
  | succ i ih =>
    intro hi old hold
    rcases hget : (nodeAt listeners outside calls i).tables.apiIdempotency.get?
      (author, str "send", key) with _ | old'
    · rw [nodeAt_succ hi] at hold
      obtain ⟨hauthor, hkey, hreturned⟩ :=
        sendMessage_newKey (consistent_nodeAt i (Nat.le_of_succ_le hi)) hget hold
      exact ⟨i, hi, Nat.lt_succ_self i, hauthor, hkey, hreturned⟩
    · obtain ⟨k, hk, hki, hrest⟩ := ih (Nat.le_of_succ_le hi) old' hget
      exact ⟨k, hk, Nat.lt_succ_of_lt hki, hrest⟩

theorem outcomeAt_of_invalid {i : ℕ} (hi : i < calls.length) (h : ¬calls[i].Valid) :
    ∃ e, outcomeAt listeners outside calls i hi = .error e := by
  rw [outcomeAt, sendMessage_run, SendCall.accept, acceptMessage]
  rcases hvalid : validateSend calls[i].author calls[i].recipient calls[i].body
    calls[i].createdAt with e | _
  · exact ⟨e, rfl⟩
  · exact absurd hvalid h

/-- **Idempotent acceptance.** In every run of `send_message` calls by any authors, keyed and
unkeyed, with any listeners:

* every call creates one message and tells every listener once, after the message is stored, or
  leaves the node as it is;
* once a call with a key has returned, a later valid call of the same author with this key returns
  the same message and creates nothing when its hash agrees, and raises a conflict when not;
* the first call with a key that returns is the one that creates its message;
* a call that does not pass the validation raises. -/
theorem sendMessage_idempotent (listeners : List (Listener ω)) (outside : ω)
    (calls : List SendCall) :
    (∀ i (hi : i < calls.length), SendEffect listeners (nodeAt listeners outside calls i) calls[i]
      (outcomeAt listeners outside calls i hi) (nodeAt listeners outside calls (i + 1))) ∧
    (∀ i j (hi : i < calls.length) (hj : j < calls.length) key acceptance, i < j →
      calls[i].idempotencyKey = some key → calls[j].idempotencyKey = some key →
      calls[i].author = calls[j].author →
      outcomeAt listeners outside calls i hi = .ok acceptance → calls[j].Valid →
      (calls[j].requestHash = calls[i].requestHash →
        outcomeAt listeners outside calls j hj = .ok ⟨acceptance.message, false⟩) ∧
      (calls[j].requestHash ≠ calls[i].requestHash →
        outcomeAt listeners outside calls j hj =
          .error ⟨.idempotencyConflictError, "key reused with another request"⟩)) ∧
    (∀ j (hj : j < calls.length) key acceptance, calls[j].idempotencyKey = some key →
      outcomeAt listeners outside calls j hj = .ok acceptance →
      (∀ i (hi : i < calls.length), i < j → calls[i].idempotencyKey = some key →
        calls[i].author = calls[j].author →
        ∀ acceptance', outcomeAt listeners outside calls i hi ≠ .ok acceptance') →
      acceptance.created = true) ∧
    ∀ i (hi : i < calls.length), ¬calls[i].Valid →
      ∃ e, outcomeAt listeners outside calls i hi = .error e := by
  refine ⟨fun i hi => ?_, ?_, ?_, fun i hi => outcomeAt_of_invalid hi⟩
  · rw [nodeAt_succ hi]
    exact (sendMessage_effect listeners calls[i] (consistent_nodeAt i hi.le)).1
  · intro i j hi hj key acceptance hij hkeyi hkeyj hauthor hreturned hvalid
    have hholds := sendMessage_keyHolds (consistent_nodeAt i hi.le) hkeyi hreturned
    rw [← nodeAt_succ hi, hauthor] at hholds
    have hholds' := hholds.mono (rowsKept_nodeAt hij hj.le)
    have hknown := sendMessage_known listeners (consistent_nodeAt j hj.le) hvalid
      hkeyj hholds'
    constructor
    · intro hhash
      rw [outcomeAt, hknown, if_pos hhash]
    · intro hhash
      rw [outcomeAt, hknown, if_neg hhash]
  · intro j hj key acceptance hkey hreturned hfirst
    refine sendMessage_unknown (consistent_nodeAt j hj.le) hkey ?_ hreturned
    rcases hget : (nodeAt listeners outside calls j).tables.apiIdempotency.get?
      (calls[j].author, str "send", key) with _ | old
    · rfl
    · obtain ⟨k, hk, hkj, hauthor, hkey', acceptance', hreturned'⟩ :=
        exists_call_of_known j hj.le old hget
      exact absurd hreturned' (hfirst k hk hkj hkey' hauthor acceptance')

/-- Every retry with the key, the author and the hash of a call that returned gets its message,
whatever else the retry carries. -/
def RetriesReturn (listeners : List (Listener ω)) (outside : ω) (calls : List SendCall) : Prop :=
  ∀ i j (hi : i < calls.length) (hj : j < calls.length) key acceptance, i < j →
    calls[i].idempotencyKey = some key → calls[j].idempotencyKey = some key →
    calls[i].author = calls[j].author → outcomeAt listeners outside calls i hi = .ok acceptance →
    calls[j].requestHash = calls[i].requestHash →
    ∃ created, outcomeAt listeners outside calls j hj = .ok ⟨acceptance.message, created⟩

/-- Validation comes before the lookup of the key: a retry with `created_at = 0` raises, although
its key, author and hash are those of a call that returned. -/
theorem not_retriesReturn :
    let first : SendCall := ⟨str "EA1ABC", str "EA2XYZ", str "hi", 1, some (str "key"), str "h", 7⟩
    ¬RetriesReturn [] () [first, { first with createdAt := 0 }] := by
  intro first h
  have hfirst : outcomeAt [] () [first, { first with createdAt := 0 }] 0 (by decide) =
      .ok ⟨⟨1, 1, 7, str "EA1ABC", str "EA2XYZ", str "hi", 1⟩, true⟩ := by decide +kernel
  have hretry : outcomeAt [] () [first, { first with createdAt := 0 }] 1 (by decide) =
      .error (.invalidField "created_at must be a non-zero unsigned 32-bit value") := by
    decide +kernel
  obtain ⟨created, hcreated⟩ := h 0 1 (by decide) (by decide) (str "key") _ Nat.zero_lt_one rfl rfl
    rfl hfirst rfl
  rw [hretry] at hcreated
  cases hcreated

end Runs

end OpenQSP
