import Mathlib.Data.List.Sort
import OpenQSP.Storage.Database

/-!
# The message and bulletin stores

Two ways of storing a message allocate the same three sequences: `storeMessage` for the transports
and `storeMessageIdempotent` for keyed calls, which also looks up and records an idempotency key.
Each is one transaction on a connection of its own, and the engine may refuse any of its
statements.

Reading operations are functions of the tables.

## Main definitions

* `StoredMessage`, `storedMessage` — a message as the stores return it, and its decoding from a row
* `storeMessage`, `storeMessageIdempotent`
* `setDelivery`, `storeBulletin`
* `getMessage`, `conversationSequence`, `getNewMessages`, `getConversationMessage`, `apiList`
* `getNewBulletins`, `getBulletin`
-/

namespace OpenQSP

structure StoredMessage where
  sequence : ℕ
  createdAt : ℕ
  acceptedAt : ℕ
  author : Str
  recipient : Str
  body : Str
  apiSequence : ℕ
  deriving DecidableEq

structure MessagePage where
  messages : List StoredMessage
  nextSince : ℤ
  hasMore : Bool
  deriving DecidableEq

/-- What the engine may do to the statements of one call. -/
abbrev Faults := List (Option PyError)

/-- `body.encode("utf-8")` -/
def encodeBody (body : Str) : Py Bytes :=
  match encodeUtf8 body with
  | some data => .ok data
  | none => .error ⟨.unicodeEncodeError, "surrogates not allowed"⟩

/-- Decode a row of `messages`. -/
def storedMessage (row : (Str × ℕ) × MessageRow) : Py StoredMessage := do
  let sequence ← validateStoredU32 row.1.2 "message sequence" false
  let createdAt ← validateStoredU32 row.2.createdAt "message created_at" true
  match decodeUtf8 row.2.body with
  | none => .error ⟨.storageIntegrityError, "message body is not valid UTF-8"⟩
  | some text =>
    return ⟨sequence, createdAt, row.2.acceptedAt, row.2.author, row.1.1, text,
      row.2.apiSequence⟩

/-- A row that a query did not find cannot be decoded. -/
def storedMessage? : Option ((Str × ℕ) × MessageRow) → Py StoredMessage
  | some row => storedMessage row
  | none => .error ⟨.typeError, "'NoneType' object is not subscriptable"⟩

/-! ### Storing -/

section Store

open Session Tables

/-- The transaction of `storeMessage`. -/
def storeMessageTransaction (createdAt : ℤ) (author recipient : Str) (body : Bytes) (clock : ℤ) :
    Session PyError Tables ℕ := do
  let row ← execute (select (mailboxSequence recipient))
  let last ← Method.ofExcept (match row with
    | none => pure 0
    | some value => validateStoredU32 value "mailbox high-water" true)
  Method.ofExcept (raiseIf (last = maxU32)
    ⟨.sequenceExhaustedError, "mailbox sequence is exhausted"⟩)
  let sequence := last + 1
  let acceptedAt ← Method.ofExcept (validateClockValue clock)
  let apiLast ← execute (select fun t => pure t.apiMessageSequence)
  let apiSequence := apiLast + 1
  execute (updateApiSequence apiSequence)
  execute (upsertMailbox recipient sequence)
  execute (insertMessage recipient sequence apiSequence createdAt acceptedAt author body)
  commit
  Method.ofExcept (pure sequence)

/-- `MessageStore.store_message`: store a message and return its mailbox sequence. -/
def storeMessage (createdAt : ℤ) (author recipient body : Str) (clock : ℤ) (faults : Faults) :
    Method PyError Tables ℕ := do
  Method.ofExcept (requireU32 "created_at" createdAt)
  let bodyBytes ← Method.ofExcept (encodeBody body)
  closing faults (atomically (storeMessageTransaction createdAt author recipient bodyBytes clock))

/-- The stored original of a key, once it has been found. -/
def replayTransaction (old : IdempotencyRow) (requestHash : Str) :
    Session PyError Tables (StoredMessage × Bool) := do
  Method.ofExcept (raiseIf (old.requestHash ≠ requestHash)
    ⟨.idempotencyConflictError, "key reused with another request"⟩)
  let row ← execute (select (messageAt old.recipient old.mailboxSequence))
  commit
  Method.ofExcept (return (← storedMessage? row, false))

/-- The transaction of `storeMessageIdempotent` when the key is new, or when there is none. -/
def createTransaction (createdAt : ℤ) (author recipient body : Str) (idempotencyKey : Option Str)
    (requestHash : Str) (clock : ℤ) : Session PyError Tables (StoredMessage × Bool) := do
  let mailbox ← execute (select (mailboxSequence recipient))
  let sequence := mailbox.getD 0 + 1
  Method.ofExcept (raiseIf (maxU32 < sequence)
    ⟨.sequenceExhaustedError, "mailbox sequence is exhausted"⟩)
  let apiLast ← execute (select fun t => pure t.apiMessageSequence)
  let apiSequence := apiLast + 1
  let acceptedAt ← Method.ofExcept (validateClockValue clock)
  execute (upsertMailbox recipient sequence)
  execute (updateApiSequence apiSequence)
  let bodyBytes ← Method.ofExcept (encodeBody body)
  execute (insertMessage recipient sequence apiSequence createdAt acceptedAt author bodyBytes)
  match idempotencyKey with
  | none => pure ()
  | some key => execute (insertIdempotency author key requestHash recipient sequence)
  let row ← execute (select (messageByApiSequence apiSequence))
  commit
  Method.ofExcept (return (← storedMessage? row, true))

/-- The transaction of `storeMessageIdempotent`. -/
def storeMessageIdempotentTransaction (createdAt : ℤ) (author recipient body : Str)
    (idempotencyKey : Option Str) (requestHash : Str) (clock : ℤ) :
    Session PyError Tables (StoredMessage × Bool) :=
  match idempotencyKey with
  | none => createTransaction createdAt author recipient body none requestHash clock
  | some key => do
    let old ← execute (select (idempotencyAt author key))
    match old with
    | some row => replayTransaction row requestHash
    | none => createTransaction createdAt author recipient body (some key) requestHash clock

/-- `MessageStore.store_message_idempotent`: store a message, or return the original of its key.
The flag says whether this call created the message. -/
def storeMessageIdempotent (createdAt : ℤ) (author recipient body : Str)
    (idempotencyKey : Option Str) (requestHash : Str) (clock : ℤ) (faults : Faults) :
    Method PyError Tables (StoredMessage × Bool) :=
  closing faults (atomically
    (storeMessageIdempotentTransaction createdAt author recipient body idempotencyKey requestHash
      clock))

/-- `MessageStore.set_delivery`: apply a transport transition; the result says whether the state
changed. -/
def setDelivery (recipient : Str) (sequence : ℤ) (transport : Str) (status : DeliveryStatus)
    (deliveredAt : Option ℤ) (faults : Faults) : Method PyError Tables Bool :=
  closing faults (atomically do
    let changed ← execute (upsertDelivery recipient sequence transport status deliveredAt)
    commit
    Method.ofExcept (pure changed))

/-- The transaction of `storeBulletin`. -/
def storeBulletinTransaction (createdAt : ℤ) (author title : Str) (body : Bytes) (clock : ℤ) :
    Session PyError Tables ℕ := do
  let state ← execute (select fun t => pure t.bulletinSequence)
  let last ← Method.ofExcept (validateStoredU32 state "bulletin high-water" true)
  Method.ofExcept (raiseIf (last = maxU32)
    ⟨.sequenceExhaustedError, "bulletin sequence is exhausted"⟩)
  let sequence := last + 1
  let acceptedAt ← Method.ofExcept (validateClockValue clock)
  execute (insertBulletin sequence createdAt acceptedAt author title body)
  execute (updateBulletinSequence sequence)
  commit
  Method.ofExcept (pure sequence)

/-- `BulletinStore.store_bulletin`: store a bulletin and return its sequence. -/
def storeBulletin (createdAt : ℤ) (author title body : Str) (clock : ℤ) (faults : Faults) :
    Method PyError Tables ℕ := do
  Method.ofExcept (requireU32 "created_at" createdAt)
  let bodyBytes ← Method.ofExcept (encodeBody body)
  closing faults (atomically (storeBulletinTransaction createdAt author title bodyBytes clock))

end Store

/-! ### Reading -/

/-- `MessageStore.get_message` -/
def getMessage (recipient : Str) (sequence : ℤ) (t : Tables) : Py (Option StoredMessage) := do
  match ← t.messageAt recipient sequence with
  | none => return none
  | some row => return some (← storedMessage row)

/-- The messages of a recipient in mailbox order. -/
def Tables.mailbox (t : Tables) (recipient : Str) : List ((Str × ℕ) × MessageRow) :=
  (t.messages.entries.filter fun e => e.1.1 = recipient).insertionSort fun e e' => e.1.2 ≤ e'.1.2

/-- `MessageStore.conversation_sequence`: the ordinal of a message among those of its author to its
recipient. -/
def conversationSequence (value : StoredMessage) (t : Tables) : Py ℕ := do
  let recipient ← bindText value.recipient
  let author ← bindText value.author
  let count := (t.mailbox recipient).countP fun e =>
    e.2.author = author && e.1.2 ≤ value.sequence
  raiseIf (count = 0 ∨ maxU32 < count)
    ⟨.storageIntegrityError, "message conversation sequence is invalid"⟩
  return count

/-- The high-water value of a mailbox, checked against the sequences of its messages. -/
def mailboxHighest (state maximum : Option ℕ) : Py ℕ :=
  match state with
  | none => do
    raiseIf maximum.isSome
      ⟨.storageIntegrityError, "mailbox has messages but no sequence state"⟩
    return 0
  | some value => do
    let highest ← validateStoredU32 value "mailbox high-water" true
    match maximum with
    | none => return highest
    | some maximum => do
      let maximum ← validateStoredU32 maximum "highest persisted message sequence" false
      raiseIf (highest < maximum)
        ⟨.storageIntegrityError, "mailbox high-water is behind persisted messages"⟩
      return highest

/-- `MessageStore.get_new_messages`: one page of a mailbox. -/
def getNewMessages (callsign : Str) (since limit : ℤ) (t : Tables) : Py MessagePage := do
  requireU32 "since" since
  validateRetrievalLimit limit
  let state ← t.mailboxSequence callsign
  let highest ← mailboxHighest state ((t.mailbox callsign).getLast?.map fun e => e.1.2)
  raiseIf ((highest : ℤ) < since) ⟨.invalidCursorError, "message cursor " ++ toString since ++
    " is ahead of mailbox high-water " ++ toString highest⟩
  let rows := ((t.mailbox callsign).filter fun e => since < (e.1.2 : ℤ)).take (limit.toNat + 1)
  -- This query does not select `api_sequence`, which is then reported as zero.
  let messages ← (rows.take limit.toNat).mapM fun row =>
    storedMessage (row.1, { row.2 with apiSequence := 0 })
  let nextSince := match messages.getLast? with
    | none => since
    | some message => message.sequence
  return ⟨messages, nextSince, decide (limit.toNat < rows.length)⟩

/-- `get_conversation_message`: the message of an author to a recipient with a given ordinal. -/
def getConversationMessage (recipient author : Str) (conversationSequence : ℤ) (t : Tables) :
    Py (Option StoredMessage) := do
  requireU32 "conversation_sequence" conversationSequence
  raiseIf (conversationSequence = 0) ⟨.valueError, "conversation_sequence must be non-zero"⟩
  let recipient ← bindText recipient
  let author ← bindText author
  let incoming := (t.mailbox recipient).filter fun e => e.2.author = author
  match incoming[(conversationSequence - 1).toNat]? with
  | none => return none
  | some row => return some (← storedMessage row)

/-- `MessageStore.api_list` without a peer: the messages to or from a callsign, in API order. -/
def apiList (callsign : Str) (after : ℤ) (limit : ℕ) (t : Tables) :
    Py (List StoredMessage × Bool) := do
  let callsign ← bindText callsign
  let after ← bindInteger after
  let rows := ((t.messages.entries.filter fun e =>
      (e.2.author = callsign || e.1.1 = callsign) && after < (e.2.apiSequence : ℤ)).insertionSort
    fun e e' => e.2.apiSequence ≤ e'.2.apiSequence).take (limit + 1)
  let messages ← (rows.take limit).mapM storedMessage
  return (messages, decide (limit < rows.length))

/-- `MessageStore.api_high_water` -/
def apiHighWater (t : Tables) : ℕ := t.apiMessageSequence

/-! ### Bulletins -/

structure StoredBulletinHeader where
  sequence : ℕ
  createdAt : ℕ
  author : Str
  title : Str
  deriving DecidableEq

structure StoredBulletin where
  sequence : ℕ
  createdAt : ℕ
  acceptedAt : ℕ
  author : Str
  title : Str
  body : Str
  deriving DecidableEq

structure BulletinPage where
  headers : List StoredBulletinHeader
  nextSince : ℤ
  hasMore : Bool
  deriving DecidableEq

def storedHeader (row : ℕ × BulletinRow) : Py StoredBulletinHeader := do
  let sequence ← validateStoredU32 row.1 "bulletin sequence" false
  let createdAt ← validateStoredU32 row.2.createdAt "bulletin created_at" true
  return ⟨sequence, createdAt, row.2.author, row.2.title⟩

def storedBulletin (row : ℕ × BulletinRow) : Py StoredBulletin := do
  let header ← storedHeader row
  match decodeUtf8 row.2.body with
  | none => .error ⟨.storageIntegrityError, "bulletin body is not valid UTF-8"⟩
  | some text =>
    return ⟨header.sequence, header.createdAt, row.2.acceptedAt, header.author, header.title, text⟩

/-- `BulletinStore.get_new_bulletins` -/
def getNewBulletins (since limit : ℤ) (t : Tables) : Py BulletinPage := do
  requireU32 "since" since
  validateRetrievalLimit limit
  let highest ← validateStoredU32 t.bulletinSequence "bulletin high-water" true
  raiseIf ((highest : ℤ) < since) ⟨.invalidCursorError, "bulletin cursor " ++ toString since ++
    " is ahead of highest sequence " ++ toString highest⟩
  let rows := ((t.bulletins.entries.filter fun e => since < (e.1 : ℤ)).insertionSort
    fun e e' => e.1 ≤ e'.1).take (limit.toNat + 1)
  let headers ← (rows.take limit.toNat).mapM storedHeader
  let nextSince := match headers.getLast? with
    | none => since
    | some header => header.sequence
  return ⟨headers, nextSince, decide (limit.toNat < rows.length)⟩

/-- `BulletinStore.get_bulletin` -/
def getBulletin (sequence : ℤ) (t : Tables) : Py (Option StoredBulletin) := do
  requireNonzeroU32 "sequence" sequence
  match t.bulletins.entries.find? fun e => (e.1 : ℤ) = sequence with
  | none => return none
  | some row => return some (← storedBulletin row)

end OpenQSP
