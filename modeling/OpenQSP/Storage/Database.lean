import OpenQSP.Lib.OrderedDict
import OpenQSP.Lib.Transaction
import OpenQSP.Python.Error

/-!
# The database

The tables of schema version 5 that the modelled stores use, and their SQL statements. A table
with a primary key is a dictionary under that key, which makes duplicate keys unrepresentable; the
`CHECK`, `UNIQUE` and `FOREIGN KEY` constraints are checked by the statements, which raise
`IntegrityError` where the engine does. Binding a parameter raises where the driver does: a text
with a lone surrogate, an integer beyond 64 bits.

Rows are listed in insertion order. SQLite itself lists them in key order, and every query that
depends on the order says `ORDER BY`.

## Main definitions

* `Tables`, `Tables.fresh`
* `Tables.insertMessage`, `updateApiSequence`, `upsertMailbox`, `insertIdempotency`,
  `upsertDelivery`, `insertBulletin`, `updateBulletinSequence` — the writing statements
* `maxU32`, `maxSqliteInteger`, `requireU32`, `validateStoredU32`, `validateClockValue` — the
  checks the stores share
-/

namespace OpenQSP

/-! ### Validation shared by the stores -/

def maxU32 : ℕ := 0xFFFFFFFF

def maxSqliteInteger : ℕ := 0x7FFFFFFFFFFFFFFF

def maxRetrievalLimit : ℕ := 20

def requireU32 (name : String) (value : ℤ) : Py Unit :=
  raiseIf (¬(0 ≤ value ∧ value ≤ maxU32))
    ⟨.valueError, name ++ " must be an unsigned 32-bit integer"⟩

def requireNonzeroU32 (name : String) (value : ℤ) : Py Unit := do
  requireU32 name value
  raiseIf (value = 0) ⟨.valueError, name ++ " must be a non-zero unsigned 32-bit integer"⟩

def validateRetrievalLimit (limit : ℤ) : Py Unit :=
  raiseIf (¬(1 ≤ limit ∧ limit ≤ maxRetrievalLimit))
    ⟨.valueError, "limit must be an integer between 1 and " ++ toString maxRetrievalLimit⟩

/-- The server's clock must fit a SQLite integer. -/
def validateClockValue (value : ℤ) : Py ℕ := do
  raiseIf (¬(0 ≤ value ∧ value ≤ maxSqliteInteger))
    ⟨.valueError, "clock must return a non-negative SQLite integer"⟩
  return value.toNat

/-- Read a sequence column. -/
def validateStoredU32 (value : ℕ) (field : String) (allowZero : Bool) : Py ℕ := do
  raiseIf (¬((if allowZero then 0 else 1) ≤ value ∧ value ≤ maxU32))
    ⟨.storageIntegrityError, field ++ " is not a valid unsigned 32-bit integer"⟩
  return value

/-! ### Binding parameters -/

/-- Bind a text parameter. -/
def bindText (value : Str) : Py Str :=
  if (encodeUtf8 value).isSome then .ok value
  else .error ⟨.unicodeEncodeError, "surrogates not allowed"⟩

/-- Bind an integer parameter. -/
def bindInteger (value : ℤ) : Py ℤ :=
  if -(maxSqliteInteger : ℤ) - 1 ≤ value ∧ value ≤ maxSqliteInteger then .ok value
  else .error ⟨.overflowError, "Python int too large to convert to SQLite INTEGER"⟩

/-- Bind an integer parameter that may be `NULL`. -/
def bindOptional : Option ℤ → Py (Option ℤ)
  | none => .ok none
  | some value => some <$> bindInteger value

/-- A declared constraint does not hold. -/
def constraintFailed (kind : String) : PyError := ⟨.integrityError, kind ++ " constraint failed"⟩

/-! ### Tables -/

/-- A row of `messages`, without its primary key. -/
structure MessageRow where
  apiSequence : ℕ
  createdAt : ℕ
  acceptedAt : ℕ
  author : Str
  body : Bytes
  deriving DecidableEq

/-- A row of `api_idempotency`, without its primary key. -/
structure IdempotencyRow where
  requestHash : Str
  recipient : Str
  mailboxSequence : ℕ
  deriving DecidableEq

inductive DeliveryStatus
  | pending | delivered | failed
  deriving DecidableEq

/-- A row of `deliveries`, without its primary key. -/
structure DeliveryRow where
  status : DeliveryStatus
  deliveredAt : Option ℕ
  deriving DecidableEq

/-- A row of `bulletins`, without its primary key. -/
structure BulletinRow where
  createdAt : ℕ
  acceptedAt : ℕ
  author : Str
  title : Str
  body : Bytes
  deriving DecidableEq

/-- The contents of the database. -/
structure Tables where
  /-- `mailbox_sequences(recipient, last_value)` -/
  mailboxSequences : OrderedDict Str ℕ
  /-- The single row of `api_message_sequence`. -/
  apiMessageSequence : ℕ
  /-- `messages`, keyed by `(recipient, mailbox_sequence)`. -/
  messages : OrderedDict (Str × ℕ) MessageRow
  /-- `api_idempotency`, keyed by `(author, operation, idempotency_key)`. -/
  apiIdempotency : OrderedDict (Str × Str × Str) IdempotencyRow
  /-- `deliveries`, keyed by `(recipient, mailbox_sequence, transport)`. -/
  deliveries : OrderedDict (Str × ℕ × Str) DeliveryRow
  /-- The single row of `bulletin_sequence`. -/
  bulletinSequence : ℕ
  /-- `bulletins`, keyed by `sequence`. -/
  bulletins : OrderedDict ℕ BulletinRow

namespace Tables

/-- What the migrations leave in a new database. -/
def fresh : Tables where
  mailboxSequences := .empty
  apiMessageSequence := 0
  messages := .empty
  apiIdempotency := .empty
  deliveries := .empty
  bulletinSequence := 0
  bulletins := .empty

/-- A statement reads and writes the tables and may raise. -/
abbrev Statement (α : Type) := Tables → Py (α × Tables)

/-- A statement that only reads. -/
def select {α : Type} (query : Tables → Py α) : Statement α := fun t => do
  return (← query t, t)

/-- `SELECT last_value FROM mailbox_sequences WHERE recipient = ?` -/
def mailboxSequence (recipient : Str) : Tables → Py (Option ℕ) := fun t => do
  let recipient ← bindText recipient
  return t.mailboxSequences.get? recipient

/-- `SELECT … FROM messages WHERE recipient = ? AND mailbox_sequence = ?` -/
def messageAt (recipient : Str) (sequence : ℤ) :
    Tables → Py (Option ((Str × ℕ) × MessageRow)) := fun t => do
  let recipient ← bindText recipient
  let sequence ← bindInteger sequence
  return t.messages.entries.find? fun e => e.1.1 = recipient && (e.1.2 : ℤ) = sequence

/-- `SELECT … FROM messages WHERE api_sequence = ?` -/
def messageByApiSequence (apiSequence : ℤ) :
    Tables → Py (Option ((Str × ℕ) × MessageRow)) := fun t => do
  let apiSequence ← bindInteger apiSequence
  return t.messages.entries.find? fun e => (e.2.apiSequence : ℤ) = apiSequence

/-- `SELECT … FROM api_idempotency WHERE author=? AND operation='send' AND idempotency_key=?` -/
def idempotencyAt (author key : Str) : Tables → Py (Option IdempotencyRow) := fun t => do
  let author ← bindText author
  let key ← bindText key
  return t.apiIdempotency.get? (author, str "send", key)

/-- `UPDATE api_message_sequence SET last_value = ? WHERE singleton = 1`, with
`CHECK(last_value >= 0)`. -/
def updateApiSequence (value : ℤ) : Statement Unit := fun t => do
  let value ← bindInteger value
  raiseIf (value < 0) (constraintFailed "CHECK")
  return ((), { t with apiMessageSequence := value.toNat })

/-- `INSERT INTO mailbox_sequences(recipient, last_value) VALUES (?, ?) ON CONFLICT(recipient) DO
UPDATE SET last_value = excluded.last_value`, with the bounds of an unsigned 32-bit value. -/
def upsertMailbox (recipient : Str) (value : ℤ) : Statement Unit := fun t => do
  let recipient ← bindText recipient
  let value ← bindInteger value
  raiseIf (¬(0 ≤ value ∧ value ≤ maxU32)) (constraintFailed "CHECK")
  return ((), { t with mailboxSequences := t.mailboxSequences.set recipient value.toNat })

/-- `INSERT INTO messages`. -/
def insertMessage (recipient : Str) (mailboxSequence apiSequence createdAt acceptedAt : ℤ)
    (author : Str) (body : Bytes) : Statement Unit := fun t => do
  let recipient ← bindText recipient
  let mailboxSequence ← bindInteger mailboxSequence
  let apiSequence ← bindInteger apiSequence
  let createdAt ← bindInteger createdAt
  let acceptedAt ← bindInteger acceptedAt
  let author ← bindText author
  raiseIf (¬(1 ≤ mailboxSequence ∧ mailboxSequence ≤ maxU32 ∧ 0 < apiSequence ∧ 0 ≤ createdAt ∧
    createdAt ≤ maxU32 ∧ 0 ≤ acceptedAt)) (constraintFailed "CHECK")
  raiseIf (∃ e ∈ t.messages.entries, (e.2.apiSequence : ℤ) = apiSequence)
    (constraintFailed "UNIQUE")
  raiseIf ((recipient, mailboxSequence.toNat) ∈ t.messages.keys) (constraintFailed "UNIQUE")
  let row : MessageRow :=
    ⟨apiSequence.toNat, createdAt.toNat, acceptedAt.toNat, author, body⟩
  return ((), { t with messages := t.messages.set (recipient, mailboxSequence.toNat) row })

/-- `INSERT INTO api_idempotency VALUES(?, 'send', ?, ?, ?, ?)`. -/
def insertIdempotency (author key requestHash recipient : Str) (mailboxSequence : ℤ) :
    Statement Unit := fun t => do
  let author ← bindText author
  let key ← bindText key
  let requestHash ← bindText requestHash
  let recipient ← bindText recipient
  let mailboxSequence ← bindInteger mailboxSequence
  raiseIf ((author, str "send", key) ∈ t.apiIdempotency.keys) (constraintFailed "UNIQUE")
  raiseIf (¬∃ e ∈ t.messages.entries, e.1.1 = recipient ∧ (e.1.2 : ℤ) = mailboxSequence)
    (constraintFailed "FOREIGN KEY")
  let row : IdempotencyRow := ⟨requestHash, recipient, mailboxSequence.toNat⟩
  return ((), { t with apiIdempotency := t.apiIdempotency.set (author, str "send", key) row })

/-- `INSERT INTO bulletins`. -/
def insertBulletin (sequence createdAt acceptedAt : ℤ) (author title : Str) (body : Bytes) :
    Statement Unit := fun t => do
  let sequence ← bindInteger sequence
  let createdAt ← bindInteger createdAt
  let acceptedAt ← bindInteger acceptedAt
  let author ← bindText author
  let title ← bindText title
  raiseIf (¬(1 ≤ sequence ∧ sequence ≤ maxU32 ∧ 0 ≤ createdAt ∧ createdAt ≤ maxU32 ∧
    0 ≤ acceptedAt)) (constraintFailed "CHECK")
  raiseIf (sequence.toNat ∈ t.bulletins.keys) (constraintFailed "UNIQUE")
  let row : BulletinRow := ⟨createdAt.toNat, acceptedAt.toNat, author, title, body⟩
  return ((), { t with bulletins := t.bulletins.set sequence.toNat row })

/-- `UPDATE bulletin_sequence SET last_value = ? WHERE singleton = 1`, with the bounds of an
unsigned 32-bit value. -/
def updateBulletinSequence (value : ℤ) : Statement Unit := fun t => do
  let value ← bindInteger value
  raiseIf (¬(0 ≤ value ∧ value ≤ maxU32)) (constraintFailed "CHECK")
  return ((), { t with bulletinSequence := value.toNat })

/-- Delivered is terminal, and a failed delivery does not become delivered. -/
def Advances (old : Option DeliveryRow) (status : DeliveryStatus) : Prop :=
  ¬∃ row ∈ old, row.status = .delivered ∨ (row.status = .failed ∧ status = .delivered)

instance (old : Option DeliveryRow) (status : DeliveryStatus) : Decidable (Advances old status) :=
  inferInstanceAs (Decidable (¬_))

/-- The upsert of a delivery state; the result says whether a row was written. -/
def upsertDelivery (recipient : Str) (sequence : ℤ) (transport : Str) (status : DeliveryStatus)
    (deliveredAt : Option ℤ) : Statement Bool := fun t => do
  let recipient ← bindText recipient
  let sequence ← bindInteger sequence
  let transport ← bindText transport
  let deliveredAt ← bindOptional deliveredAt
  raiseIf (∃ value ∈ deliveredAt, value < 0) (constraintFailed "CHECK")
  raiseIf (¬∃ e ∈ t.messages.entries, e.1.1 = recipient ∧ (e.1.2 : ℤ) = sequence)
    (constraintFailed "FOREIGN KEY")
  let key := (recipient, sequence.toNat, transport)
  if Advances (t.deliveries.get? key) status then
    return (true, { t with
      deliveries := t.deliveries.set key ⟨status, deliveredAt.map Int.toNat⟩ })
  else return (false, t)

/-! ### What a statement did -/

section Specs

open Py

variable {t t' : Tables} {recipient author key requestHash : Str} {u : Unit}

theorem bindText_eq_ok {value bound : Str} :
    bindText value = .ok bound ↔ bound = value ∧ (encodeUtf8 value).isSome := by
  rw [bindText]
  split
  · next h => simp [h, eq_comm]
  · next h => simp [h]

theorem bindInteger_eq_ok {value bound : ℤ} (h : bindInteger value = .ok bound) :
    bound = value := by
  rw [bindInteger] at h
  split at h
  · exact (Except.ok.inj h).symm
  · cases h

theorem bindInteger_le {value bound : ℤ} (h : bindInteger value = .ok bound) :
    value ≤ maxSqliteInteger := by
  rw [bindInteger] at h
  split at h
  · next hvalue => exact hvalue.2
  · cases h

theorem bindInteger_of_natCast {n : ℕ} (h : (n : ℤ) ≤ maxSqliteInteger) :
    bindInteger n = .ok (n : ℤ) := by
  rw [bindInteger, if_pos]
  refine ⟨?_, h⟩
  omega

theorem select_eq_ok {α : Type} {query : Tables → Py α} {a : α} :
    select query t = .ok (a, t') ↔ query t = .ok a ∧ t' = t := by
  simp only [select, bind_eq_ok, pure_eq_ok, Except.ok.injEq, Prod.mk.injEq]
  constructor
  · rintro ⟨_, h, rfl, rfl⟩
    exact ⟨h, rfl⟩
  · rintro ⟨h, rfl⟩
    exact ⟨a, h, rfl, rfl⟩

theorem mailboxSequence_eq_ok {value : Option ℕ} (h : t.mailboxSequence recipient = .ok value) :
    value = t.mailboxSequences.get? recipient := by
  simp only [mailboxSequence, bind_eq_ok, bindText_eq_ok] at h
  obtain ⟨_, ⟨rfl, -⟩, h⟩ := h
  exact (Except.ok.inj h).symm

theorem messageAt_eq_ok {sequence : ℤ} {row : Option ((Str × ℕ) × MessageRow)}
    (h : t.messageAt recipient sequence = .ok row) :
    row = t.messages.entries.find? fun e => e.1.1 = recipient && (e.1.2 : ℤ) = sequence := by
  simp only [messageAt, bind_eq_ok, bindText_eq_ok] at h
  obtain ⟨_, ⟨rfl, -⟩, _, hs, h⟩ := h
  obtain rfl := bindInteger_eq_ok hs
  exact (Except.ok.inj h).symm

theorem messageByApiSequence_eq_ok {apiSequence : ℤ} {row : Option ((Str × ℕ) × MessageRow)}
    (h : t.messageByApiSequence apiSequence = .ok row) :
    row = t.messages.entries.find? fun e => (e.2.apiSequence : ℤ) = apiSequence := by
  simp only [messageByApiSequence, bind_eq_ok] at h
  obtain ⟨_, hs, h⟩ := h
  obtain rfl := bindInteger_eq_ok hs
  exact (Except.ok.inj h).symm

theorem idempotencyAt_eq_ok {row : Option IdempotencyRow}
    (h : t.idempotencyAt author key = .ok row) :
    row = t.apiIdempotency.get? (author, str "send", key) := by
  simp only [idempotencyAt, bind_eq_ok, bindText_eq_ok] at h
  obtain ⟨_, ⟨rfl, -⟩, _, ⟨rfl, -⟩, h⟩ := h
  exact (Except.ok.inj h).symm

theorem updateApiSequence_eq_ok {value : ℤ} (h : updateApiSequence value t = .ok (u, t')) :
    value ≤ maxSqliteInteger ∧ t' = { t with apiMessageSequence := value.toNat } := by
  simp only [updateApiSequence, bind_eq_ok] at h
  obtain ⟨_, hv, _, -, h⟩ := h
  have hmax := bindInteger_le hv
  obtain rfl := bindInteger_eq_ok hv
  exact ⟨hmax, (congrArg Prod.snd (Except.ok.inj h)).symm⟩

theorem upsertMailbox_eq_ok {value : ℤ} (h : upsertMailbox recipient value t = .ok (u, t')) :
    value ≤ maxU32 ∧
      t' = { t with mailboxSequences := t.mailboxSequences.set recipient value.toNat } := by
  simp only [upsertMailbox, bind_eq_ok, bindText_eq_ok, raiseIf_eq_ok, not_not] at h
  obtain ⟨_, ⟨rfl, -⟩, _, hv, _, hrange, h⟩ := h
  obtain rfl := bindInteger_eq_ok hv
  exact ⟨hrange.2, (congrArg Prod.snd (Except.ok.inj h)).symm⟩

/-- An inserted message has a new primary key, and its columns are in their ranges. -/
theorem insertMessage_eq_ok {mailboxSequence apiSequence createdAt acceptedAt : ℤ} {body : Bytes}
    (h : insertMessage recipient mailboxSequence apiSequence createdAt acceptedAt author body t =
      .ok (u, t')) :
    (encodeUtf8 recipient).isSome ∧ (encodeUtf8 author).isSome ∧ 0 ≤ createdAt ∧
      createdAt ≤ maxU32 ∧ (recipient, mailboxSequence.toNat) ∉ t.messages.keys ∧
      (∀ e ∈ t.messages.entries, (e.2.apiSequence : ℤ) ≠ apiSequence) ∧
      t' = { t with
        messages := t.messages.set (recipient, mailboxSequence.toNat)
          ⟨apiSequence.toNat, createdAt.toNat, acceptedAt.toNat, author, body⟩ } := by
  simp only [insertMessage, bind_eq_ok, bindText_eq_ok, raiseIf_eq_ok, not_not] at h
  obtain ⟨_, ⟨rfl, hrecipient⟩, _, hms, _, has, _, hca, _, haa, _, ⟨rfl, hauthor⟩, _, hrange, _,
    hunique, _, hkey, h⟩ := h
  obtain rfl := bindInteger_eq_ok hms
  obtain rfl := bindInteger_eq_ok has
  obtain rfl := bindInteger_eq_ok hca
  obtain rfl := bindInteger_eq_ok haa
  exact ⟨hrecipient, hauthor, hrange.2.2.2.1, hrange.2.2.2.2.1, hkey, fun e he h =>
    hunique ⟨e, he, h⟩,
    (congrArg Prod.snd (Except.ok.inj h)).symm⟩

/-- An inserted bulletin has a new sequence, and its columns are in their ranges. -/
theorem insertBulletin_eq_ok {sequence createdAt acceptedAt : ℤ} {title : Str} {body : Bytes}
    (h : insertBulletin sequence createdAt acceptedAt author title body t = .ok (u, t')) :
    sequence ≤ maxU32 ∧ 0 ≤ createdAt ∧ createdAt ≤ maxU32 ∧
      (encodeUtf8 author).isSome ∧ (encodeUtf8 title).isSome ∧
      sequence.toNat ∉ t.bulletins.keys ∧
      t' = { t with
        bulletins := t.bulletins.set sequence.toNat
          ⟨createdAt.toNat, acceptedAt.toNat, author, title, body⟩ } := by
  simp only [insertBulletin, bind_eq_ok, bindText_eq_ok, raiseIf_eq_ok, not_not] at h
  obtain ⟨_, hs, _, hca, _, haa, _, ⟨rfl, hauthor⟩, _, ⟨rfl, htitle⟩, _, hrange, _, hkey, h⟩ := h
  obtain rfl := bindInteger_eq_ok hs
  obtain rfl := bindInteger_eq_ok hca
  obtain rfl := bindInteger_eq_ok haa
  exact ⟨hrange.2.1, hrange.2.2.1, hrange.2.2.2.1, hauthor, htitle, hkey,
    (congrArg Prod.snd (Except.ok.inj h)).symm⟩

theorem updateBulletinSequence_eq_ok {value : ℤ}
    (h : updateBulletinSequence value t = .ok (u, t')) :
    t' = { t with bulletinSequence := value.toNat } := by
  simp only [updateBulletinSequence, bind_eq_ok] at h
  obtain ⟨_, hv, _, -, h⟩ := h
  obtain rfl := bindInteger_eq_ok hv
  exact (congrArg Prod.snd (Except.ok.inj h)).symm

/-- A recorded key is new and points to a message. -/
theorem insertIdempotency_eq_ok {mailboxSequence : ℤ}
    (h : insertIdempotency author key requestHash recipient mailboxSequence t = .ok (u, t')) :
    (encodeUtf8 key).isSome ∧ (author, str "send", key) ∉ t.apiIdempotency.keys ∧
      (recipient, mailboxSequence.toNat) ∈ t.messages.keys ∧
      t' = { t with
        apiIdempotency := t.apiIdempotency.set (author, str "send", key)
          ⟨requestHash, recipient, mailboxSequence.toNat⟩ } := by
  simp only [insertIdempotency, bind_eq_ok, bindText_eq_ok, raiseIf_eq_ok, not_not] at h
  obtain ⟨_, ⟨rfl, -⟩, _, ⟨rfl, hencodable⟩, _, ⟨rfl, -⟩, _, ⟨rfl, -⟩, _, hms, _, hkey, _, href,
    h⟩ := h
  obtain rfl := bindInteger_eq_ok hms
  obtain ⟨⟨⟨r, s⟩, row⟩, hmem, hr, hs⟩ := href
  refine ⟨hencodable, hkey, ?_, (congrArg Prod.snd (Except.ok.inj h)).symm⟩
  simp only at hr hs
  subst hr hs
  exact OrderedDict.mem_keys_of_mem hmem

/-- The statement writes deliveries only. -/
theorem upsertDelivery_eq_ok {transport : Str} {sequence : ℤ} {status : DeliveryStatus}
    {deliveredAt : Option ℤ} {changed : Bool}
    (h : upsertDelivery recipient sequence transport status deliveredAt t = .ok (changed, t')) :
    ∃ deliveries, t' = { t with deliveries } := by
  obtain ⟨recipient, -, h⟩ := bind_eq_ok.mp h
  obtain ⟨sequence, -, h⟩ := bind_eq_ok.mp h
  obtain ⟨transport, -, h⟩ := bind_eq_ok.mp h
  obtain ⟨deliveredAt, -, h⟩ := bind_eq_ok.mp h
  obtain ⟨_, -, h⟩ := bind_eq_ok.mp h
  obtain ⟨_, -, h⟩ := bind_eq_ok.mp h
  dsimp only at h
  split at h
  · obtain ⟨-, rfl⟩ := Prod.mk.inj (Except.ok.inj h)
    exact ⟨_, rfl⟩
  · obtain ⟨-, rfl⟩ := Prod.mk.inj (Except.ok.inj h)
    exact ⟨_, rfl⟩

end Specs

end Tables

end OpenQSP
