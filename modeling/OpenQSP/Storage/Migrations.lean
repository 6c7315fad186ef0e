import Mathlib.Data.List.Lex
import Mathlib.Data.Prod.Lex
import OpenQSP.Lib.Window
import OpenQSP.Storage.Messages

/-!
# Schema migrations

A database has one of five schema versions, and each migration rewrites its tables into those of the
next one. Version 1 numbers all messages of the node by one sequence of eight-byte blobs, version 2
numbers each mailbox and the bulletins on their own, and version 4 adds the node-wide API sequence,
which it derives from the acceptance times. What versions 3 and 5 add is empty: accounts, which no
other table mentions, and the delivery and read states.

A statement that copies rows into a table fails when a row violates a `CHECK` or when a key occurs
twice. Text is compared by its UTF-8 bytes, and blobs byte by byte.

## Main definitions

* `TablesV1`, `TablesV1.Constraints`, `TablesV2`, `TablesV4` — the tables of the older versions
* `migration2`, `migration4` — the migrations that rewrite rows
* `Schema`, `migrate` — all pending migrations in one transaction
-/

namespace OpenQSP

/-! ### Blobs and text in comparisons -/

/-- A blob as it is compared. -/
def blobKey (blob : Bytes) : List ℕ := blob.map UInt8.toNat

/-- A text as it is compared. -/
def textKey (text : Str) : List ℕ := blobKey ((encodeUtf8 text).getD [])

/-! ### Version 1 -/

/-- A row of `messages` in version 1. -/
structure MessageRowV1 where
  sequence : Bytes
  messageId : Bytes
  createdAt : ℤ
  acceptedAt : ℤ
  author : Str
  recipient : Str
  body : Bytes
  contentHash : Bytes
  deriving DecidableEq

/-- A row of `bulletins` in version 1. -/
structure BulletinRowV1 where
  sequence : Bytes
  bulletinId : Bytes
  createdAt : ℤ
  acceptedAt : ℤ
  author : Str
  title : Str
  body : Bytes
  contentHash : Bytes
  deriving DecidableEq

inductive ObjectType
  | message | bulletin
  deriving DecidableEq

/-- The tables of version 1. -/
structure TablesV1 where
  /-- `objects(object_id, object_type)` -/
  objects : OrderedDict Bytes ObjectType
  /-- `sequences`, the row of the messages. -/
  messagesLast : Bytes
  /-- `sequences`, the row of the bulletins. -/
  bulletinsLast : Bytes
  messages : List MessageRowV1
  bulletins : List BulletinRowV1

/-- The declared constraints of an object table of version 1, for its sequence, identifier and
timestamp columns. The trigger and the foreign key are `typed`. -/
structure ObjectRows (t : TablesV1) {α : Type} (rows : List α) (sequence id : α → Bytes)
    (createdAt acceptedAt : α → ℤ) (type : ObjectType) : Prop where
  sequences_unique : (rows.map sequence).Nodup
  sequences_blob : ∀ row ∈ rows, (sequence row).length = 8 ∧
    blobKey (List.replicate 8 0) < blobKey (sequence row)
  ids_unique : (rows.map id).Nodup
  ids_blob : ∀ row ∈ rows, (id row).length = 8
  created : ∀ row ∈ rows, 0 ≤ createdAt row ∧ createdAt row ≤ maxSqliteInteger
  accepted : ∀ row ∈ rows, 0 ≤ acceptedAt row ∧ acceptedAt row ≤ maxSqliteInteger
  typed : ∀ row ∈ rows, t.objects.get? (id row) = some type
  /-- The engine has an integer for every row. -/
  capacity : rows.length < maxSqliteInteger

/-- The declared constraints of version 1. Columns hold values of their declared types, and an
integer of the engine has 64 bits. -/
structure TablesV1.Constraints (t : TablesV1) : Prop where
  objects : ∀ id ∈ t.objects.keys, id.length = 8
  last : t.messagesLast.length = 8 ∧ t.bulletinsLast.length = 8
  messages : ObjectRows t t.messages (·.sequence) (·.messageId) (·.createdAt) (·.acceptedAt)
    .message
  bulletins : ObjectRows t t.bulletins (·.sequence) (·.bulletinId) (·.createdAt) (·.acceptedAt)
    .bulletin

/-- What migration 1 leaves in a new database. -/
def TablesV1.fresh : TablesV1 where
  objects := .empty
  messagesLast := List.replicate 8 0
  bulletinsLast := List.replicate 8 0
  messages := []
  bulletins := []

/-! ### Versions 2 to 4 -/

/-- A row of `messages` in versions 2 and 3, without its primary key. -/
structure MessageRowV2 where
  createdAt : ℕ
  acceptedAt : ℕ
  author : Str
  body : Bytes
  deriving DecidableEq

/-- The tables of versions 2 and 3. -/
structure TablesV2 where
  mailboxSequences : OrderedDict Str ℕ
  messages : OrderedDict (Str × ℕ) MessageRowV2
  bulletinSequence : ℕ
  bulletins : OrderedDict ℕ BulletinRow

/-- The tables of version 4. -/
structure TablesV4 where
  mailboxSequences : OrderedDict Str ℕ
  apiMessageSequence : ℕ
  messages : OrderedDict (Str × ℕ) MessageRow
  apiIdempotency : OrderedDict (Str × Str × Str) IdempotencyRow
  bulletinSequence : ℕ
  bulletins : OrderedDict ℕ BulletinRow

/-! ### The migrations -/

/-- Insert rows into an empty table with a primary key. -/
def insertAll {κ ν : Type} [DecidableEq κ] (rows : List (κ × ν)) : Py (OrderedDict κ ν) :=
  if h : (rows.map Prod.fst).Nodup then .ok ⟨rows, h⟩ else .error (constraintFailed "UNIQUE")

/-- The order of the rows of version 1. -/
def MessageRowV1.orderKey (row : MessageRowV1) : List ℕ ×ₗ List ℕ :=
  toLex (blobKey row.sequence, blobKey row.messageId)

def BulletinRowV1.orderKey (row : BulletinRowV1) : List ℕ ×ₗ List ℕ :=
  toLex (blobKey row.sequence, blobKey row.bulletinId)

/-- `SELECT recipient, MAX(mailbox_sequence) FROM messages GROUP BY recipient` -/
def lastValues (keys : List (Str × ℕ)) : OrderedDict Str ℕ where
  entries := (keys.map Prod.fst).dedup.map fun recipient =>
    (recipient, ((keys.filter fun k => k.1 = recipient).map Prod.snd).foldr max 0)
  nodup_keys := by
    rw [List.map_map]
    exact (List.map_id _).symm ▸ List.nodup_dedup _

/-- The columns that versions 1 and 2 share are in the ranges of version 2. -/
def FitsV2 (number : ℕ) (createdAt acceptedAt : ℤ) : Prop :=
  (1 ≤ number ∧ number ≤ maxU32) ∧ (0 ≤ createdAt ∧ createdAt ≤ maxU32) ∧ 0 ≤ acceptedAt

instance (number : ℕ) (createdAt acceptedAt : ℤ) : Decidable (FitsV2 number createdAt acceptedAt) :=
  inferInstanceAs (Decidable (_ ∧ _))

/-- The copied row of a message, under its new key. -/
def MessageRowV1.copy (e : MessageRowV1 × ℕ) : (Str × ℕ) × MessageRowV2 :=
  ((e.1.recipient, e.2), ⟨e.1.createdAt.toNat, e.1.acceptedAt.toNat, e.1.author, e.1.body⟩)

/-- The copied row of a bulletin, under its new key. -/
def BulletinRowV1.copy (e : BulletinRowV1 × ℕ) : ℕ × BulletinRow :=
  (e.2, ⟨e.1.createdAt.toNat, e.1.acceptedAt.toNat, e.1.author, e.1.title, e.1.body⟩)

/-- `_MIGRATION_2`: number each mailbox and the bulletins on their own. -/
def migration2 (old : TablesV1) : Py TablesV2 := do
  -- INSERT INTO messages … ROW_NUMBER() OVER (PARTITION BY recipient ORDER BY sequence, message_id)
  let numbered := rowNumbers MessageRowV1.recipient (orderBy MessageRowV1.orderKey old.messages)
  raiseIf (∃ e ∈ numbered, ¬FitsV2 e.2 e.1.createdAt e.1.acceptedAt) (constraintFailed "CHECK")
  let messages ← insertAll (numbered.map MessageRowV1.copy)
  -- INSERT INTO mailbox_sequences
  let mailboxSequences := lastValues messages.keys
  raiseIf (∃ e ∈ mailboxSequences.entries, maxU32 < e.2) (constraintFailed "CHECK")
  -- INSERT INTO bulletins … ROW_NUMBER() OVER (ORDER BY sequence, bulletin_id)
  let numbered := rowNumbers (fun _ => ()) (orderBy BulletinRowV1.orderKey old.bulletins)
  raiseIf (∃ e ∈ numbered, ¬FitsV2 e.2 e.1.createdAt e.1.acceptedAt) (constraintFailed "CHECK")
  let bulletins ← insertAll (numbered.map BulletinRowV1.copy)
  -- UPDATE bulletin_sequence SET last_value = (SELECT COUNT(*) FROM bulletins)
  raiseIf (maxU32 < bulletins.size) (constraintFailed "CHECK")
  return ⟨mailboxSequences, messages, bulletins.size, bulletins⟩

/-- The order in which migration 4 numbers the messages of the node. -/
def apiOrderKey (e : (Str × ℕ) × MessageRowV2) : ℕ ×ₗ List ℕ ×ₗ ℕ :=
  toLex (e.2.acceptedAt, toLex (textKey e.1.1, e.1.2))

/-- The copied row of a message, with its API sequence. -/
def MessageRowV2.copy (e : ((Str × ℕ) × MessageRowV2) × ℕ) : (Str × ℕ) × MessageRow :=
  (e.1.1, ⟨e.2, e.1.2.createdAt, e.1.2.acceptedAt, e.1.2.author, e.1.2.body⟩)

/-- `_MIGRATION_4`: number all messages of the node. -/
def migration4 (old : TablesV2) : Py TablesV4 := do
  -- INSERT INTO messages … ROW_NUMBER() OVER (ORDER BY accepted_at, recipient, mailbox_sequence)
  let numbered := rowNumbers (fun _ => ()) (orderBy apiOrderKey old.messages.entries)
  raiseIf (∃ e ∈ numbered, ¬FitsV2 e.1.1.2 e.1.2.createdAt e.1.2.acceptedAt ∨ e.2 = 0)
    (constraintFailed "CHECK")
  raiseIf (¬(numbered.map Prod.snd).Nodup) (constraintFailed "UNIQUE")
  let messages ← insertAll (numbered.map MessageRowV2.copy)
  -- UPDATE api_message_sequence SET last_value = (SELECT COUNT(*) FROM messages)
  return ⟨old.mailboxSequences, messages.size, messages, .empty, old.bulletinSequence,
    old.bulletins⟩

/-- `_MIGRATION_5`: add the empty tables of delivery and read states. -/
def migration5 (old : TablesV4) : Tables where
  mailboxSequences := old.mailboxSequences
  apiMessageSequence := old.apiMessageSequence
  messages := old.messages
  apiIdempotency := old.apiIdempotency
  deliveries := .empty
  bulletinSequence := old.bulletinSequence
  bulletins := old.bulletins

/-! ### All pending migrations -/

/-- A database of any version; version 0 is a new file. -/
inductive Schema
  | v0
  | v1 (tables : TablesV1)
  | v2 (tables : TablesV2)
  | v3 (tables : TablesV2)
  | v4 (tables : TablesV4)
  | v5 (tables : Tables)

def latestSchemaVersion : ℕ := 5

/-- The statements of one migration; they fail on the tables of another version. -/
def migration : ℕ → Schema → Py Schema
  | 1, .v0 => return .v1 .fresh
  | 2, .v1 old => return .v2 (← migration2 old)
  | 3, .v2 old => return .v3 old
  | 4, .v3 old => return .v4 (← migration4 old)
  | 5, .v4 old => return .v5 (migration5 old)
  | _, _ => .error ⟨.operationalError, "no such table"⟩

/-- `migrate`: apply all pending migrations in one transaction. -/
def migrate (current : ℕ) (faults : Faults) : Method PyError Schema Unit := do
  Method.ofExcept (raiseIf (latestSchemaVersion < current)
    ⟨.valueError, "current schema version is outside the migration range"⟩)
  Session.closing faults (Session.atomically do
    (List.range' (current + 1) (latestSchemaVersion - current)).forM fun version =>
      Session.execute fun schema => return ((), ← migration version schema)
    Session.commit
    Method.ofExcept (pure ()))

end OpenQSP
