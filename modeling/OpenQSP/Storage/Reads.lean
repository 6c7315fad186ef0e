import Mathlib.Order.Basic
import OpenQSP.Lib.Groups
import OpenQSP.Storage.Logs

/-!
# Read cursors and conversations

A user reads the messages of a peer by moving one cursor, which is a mailbox sequence: everything of
that peer up to the cursor has been read. The cursors have a table of their own. What is known of a
single message is projected from the cursor and from the delivery rows, and the summaries of all
conversations of a user are one query.

## Main definitions

* `Database` — the tables with the read cursors
* `MessageState`, `messageState` — what is known of a message
* `Conversation`, `conversations` — the summaries
* `advanceConversationRead`
-/

namespace OpenQSP

/-- The tables with the read cursors. -/
structure Database extends Tables where
  /-- `conversation_reads`, keyed by `(owner_callsign, peer_callsign)`. -/
  conversationReads : OrderedDict (Str × Str) ℕ

/-- The state that the recipient of a message reports. -/
inductive MessageState
  | stored | delivered | read
  deriving DecidableEq

structure Conversation where
  peer : Str
  lastMessage : StoredMessage
  unreadCount : ℕ
  lastReadSequence : ℕ
  deriving DecidableEq

namespace Database

/-- A statement that only reads. -/
def select {α : Type} (query : Database → Py α) : Database → Py (α × Database) := fun d => do
  return (← query d, d)

/-- `SELECT last_read_sequence FROM conversation_reads WHERE owner_callsign=? AND
peer_callsign=?` -/
def lastRead (owner peer : Str) : Database → Py (Option ℕ) := fun d => do
  let owner ← bindText owner
  let peer ← bindText peer
  return d.conversationReads.get? (owner, peer)

/-- `SELECT MAX(delivered_at) FROM deliveries WHERE recipient=? AND mailbox_sequence=? AND
status='delivered'`; `MAX` passes over `NULL`. -/
def lastDelivered (recipient : Str) (sequence : ℤ) : Database → Py (Option ℕ) := fun d => do
  let recipient ← bindText recipient
  let sequence ← bindInteger sequence
  let rows := d.deliveries.entries.filter fun e =>
    e.1.1 = recipient && (e.1.2.1 : ℤ) = sequence && e.2.status = .delivered
  return (rows.filterMap fun e => e.2.deliveredAt).max?

/-- `MessageStore.message_state`: the state of a message and when it was delivered. -/
def messageState (value : StoredMessage) (d : Database) : Py (MessageState × Option ℕ) := do
  let readRow ← d.lastRead value.recipient value.author
  let deliveredAt ← d.lastDelivered value.recipient value.sequence
  if ∃ last ∈ readRow, value.sequence ≤ last then return (.read, deliveredAt)
  else match deliveredAt with
    | some deliveredAt => return (.delivered, some deliveredAt)
    | none => return (.stored, none)

/-! ### Conversations -/

/-- `CASE WHEN author=? THEN recipient ELSE author END` -/
def peerOf (callsign : Str) (e : (Str × ℕ) × MessageRow) : Str :=
  if e.2.author = callsign then e.1.1 else e.2.author

/-- `SELECT COUNT(*) FROM messages WHERE recipient=? AND author=? AND mailbox_sequence>?` -/
def countUnread (t : Tables) (callsign peer : Str) (lastRead : ℕ) : ℕ :=
  t.messages.entries.countP fun e => e.1.1 = callsign && e.2.author = peer && lastRead < e.1.2

/-- The summary of a conversation, from the row of its last message. -/
def summary (callsign : Str) (d : Database) (row : (Str × ℕ) × MessageRow) : Py Conversation := do
  let peer := peerOf callsign row
  let lastReadSequence := (d.conversationReads.get? (callsign, peer)).getD 0
  let lastMessage ← storedMessage row
  return ⟨peer, lastMessage, countUnread d.toTables callsign peer lastReadSequence,
    lastReadSequence⟩

/-- `MessageStore.conversations`: one summary for each peer, the latest first. -/
def conversations (callsign : Str) (d : Database) : Py (List Conversation) := do
  let callsign ← bindText callsign
  let visible := d.apiLog callsign
  let latest := joinMax (peerOf callsign) (fun e => e.2.apiSequence) visible
  (orderBy (fun e => OrderDual.toDual e.2.apiSequence) latest).mapM (summary callsign d)

/-- `SELECT COALESCE(MAX(mailbox_sequence), 0) FROM messages WHERE recipient=? AND author=?` -/
def lastIncoming (owner peer : Str) : Database → Py ℕ := fun d => do
  let owner ← bindText owner
  let peer ← bindText peer
  let rows := d.messages.entries.filter fun e => e.1.1 = owner && e.2.author = peer
  return (rows.map fun e => e.1.2).max?.getD 0

/-- `INSERT INTO conversation_reads … ON CONFLICT … DO UPDATE SET last_read_sequence =
MAX(last_read_sequence, excluded.last_read_sequence)` -/
def upsertRead (owner peer : Str) (sequence : ℕ) : Database → Py (Unit × Database) := fun d => do
  let owner ← bindText owner
  let peer ← bindText peer
  let _ ← bindInteger sequence
  let value := match d.conversationReads.get? (owner, peer) with
    | some last => max last sequence
    | none => sequence
  return ((), { d with conversationReads := d.conversationReads.set (owner, peer) value })

/-- `MessageStore.advance_conversation_read`: the cursor, and whether it moved. Without a commit the
connection is closed, which undoes the transaction. -/
def advanceConversationRead (owner peer : Str) (faults : Faults) :
    Method PyError Database (ℕ × Bool) :=
  Session.closing faults (Session.atomically do
    let previousRow ← Session.execute (select (lastRead owner peer))
    let previous := previousRow.getD 0
    let sequence ← Session.execute (select (lastIncoming owner peer))
    Session.execute (upsertRead owner peer sequence)
    let row ← Session.execute (select (lastRead owner peer))
    let persisted ← Method.ofExcept (match row with
      | some value => .ok value
      | none => .error ⟨.typeError, "'NoneType' object is not subscriptable"⟩)
    Session.commit
    Method.ofExcept (pure (persisted, decide (previous < persisted))))

end Database

end OpenQSP
