import OpenQSP.Lib.Log
import OpenQSP.Lib.Window
import OpenQSP.Storage.Sequences

/-!
# The logs of the database

The mailbox of a recipient, the bulletins, and the messages to or from one account are logs: their
rows have increasing sequences, and what is stored later comes behind what was there.

The bulletins have one sequence, kept in the same way as those of the messages.

## Main definitions

* `Tables.BulletinsConsistent` — the invariant of the bulletins
* `Tables.Sound` — the invariant of the whole database
* `DatabaseCall`, `databaseState` — runs in which all stores are called
* `Tables.mailboxPosition`, `bulletinPosition`, `apiPosition`, `apiLog`

## Main results

* `storeBulletin_spec` — one call
* `foldl_next`, `sound_databaseState` — what holds along a run
* `Tables.Consistent.ascending_mailbox`, `Tables.Grows.mailbox` — a mailbox is a log that grows
-/

namespace OpenQSP

open Session

/-! ### Storing a bulletin -/

namespace Tables

/-- The tables with one more bulletin. -/
def publish (t : Tables) (author title : Str) (body : Bytes) (createdAt acceptedAt : ℕ) : Tables :=
  { t with
    bulletins := t.bulletins.set (t.bulletinSequence + 1) ⟨createdAt, acceptedAt, author, title,
      body⟩
    bulletinSequence := t.bulletinSequence + 1 }

/-- The bulletin sequences are `1, …, n`, in insertion order, and every row can be decoded. -/
structure BulletinsConsistent (t : Tables) : Prop where
  sequences : t.bulletins.entries.map (fun e => e.1) = List.range' 1 t.bulletinSequence
  readable : ∀ e ∈ t.bulletins.entries, ∃ bulletin, storedBulletin e = .ok bulletin
  highest_le : t.bulletinSequence ≤ maxU32

theorem bulletinsConsistent_fresh : fresh.BulletinsConsistent where
  sequences := rfl
  readable _ h := by cases h
  highest_le := Nat.zero_le _

end Tables

/-- The next bulletin fits, and `t'` is `t` with it. -/
structure Publishes (t : Tables) (createdAt : ℤ) (author title body : Str) (t' : Tables)
    (bulletin : StoredBulletin) : Prop where
  /-- The sequence is not exhausted. -/
  sequence_le : t.bulletinSequence + 1 ≤ maxU32
  /-- The sequence is new. -/
  key_new : t.bulletinSequence + 1 ∉ t.bulletins.keys
  /-- The timestamp is an unsigned 32-bit value. -/
  created : (bulletin.createdAt : ℤ) = createdAt ∧ bulletin.createdAt ≤ maxU32
  /-- The bulletin that was stored. -/
  bulletin_eq : bulletin = ⟨t.bulletinSequence + 1, bulletin.createdAt, bulletin.acceptedAt, author,
    title, body⟩
  /-- The new tables. -/
  tables_eq : ∃ data, encodeUtf8 body = some data ∧
    t' = t.publish author title data bulletin.createdAt bulletin.acceptedAt

section Calls

open Tables

variable {t t' : Tables}

theorem storeBulletinTransaction_commits {createdAt clock : ℤ} {author title body : Str}
    {data : Bytes} (hbody : encodeUtf8 body = some data) :
    Commits (· = t) (storeBulletinTransaction createdAt author title data clock)
      fun sequence t' => ∃ bulletin, Publishes t createdAt author title body t' bulletin ∧
        bulletin.sequence = sequence := by
  refine Commits.step fun state t₁ h => ?_
  obtain ⟨hstate, rfl⟩ := select_eq_ok.mp h
  obtain rfl := Except.ok.inj hstate
  refine Commits.check fun last hlast => ?_
  obtain ⟨_, -, hlast⟩ := Py.bind_eq_ok.mp hlast
  obtain rfl := Except.ok.inj hlast
  refine Commits.check fun _ _ => Commits.check fun acceptedAt _ => ?_
  refine Commits.step fun _ t₂ h => ?_
  obtain ⟨hmax, hpos, hcreated, -, -, hkey, rfl⟩ := insertBulletin_eq_ok h
  refine Commits.step fun _ t₃ h => ?_
  obtain rfl := updateBulletinSequence_eq_ok h
  refine Commits.commit fun d hd => ⟨_, rfl, ?_⟩
  refine ⟨⟨t₁.bulletinSequence + 1, createdAt.toNat, acceptedAt, author, title, body⟩,
    ⟨by exact_mod_cast hmax, hkey, ⟨Int.toNat_of_nonneg hpos, Int.toNat_le.mpr hcreated⟩, rfl, data,
      hbody, hd⟩, rfl⟩

/-- One call of `storeBulletin`: it raises and changes nothing, or it stores one bulletin and
returns its sequence. -/
theorem storeBulletin_spec (t : Tables) (createdAt : ℤ) (author title body : Str) (clock : ℤ)
    (faults : Faults) :
    (∀ e, ((storeBulletin createdAt author title body clock faults).run t).1 = .error e →
      ((storeBulletin createdAt author title body clock faults).run t).2 = t) ∧
    ∀ sequence, ((storeBulletin createdAt author title body clock faults).run t).1 = .ok sequence →
      ∃ bulletin, Publishes t createdAt author title body
        ((storeBulletin createdAt author title body clock faults).run t).2 bulletin ∧
          bulletin.sequence = sequence := by
  rw [storeBulletin]
  rcases requireU32 "created_at" createdAt with e | _
  · exact ⟨fun _ _ => rfl, fun _ h => (nomatch h)⟩
  rcases hbody : encodeBody body with e | data
  · exact ⟨fun _ _ => rfl, fun _ h => (nomatch h)⟩
  exact run_closing_atomically (storeBulletinTransaction_commits (encodeBody_eq_ok.mp hbody)) faults

/-- Storing a message does not touch the bulletins. -/
theorem KeyedOutcome.bulletins {createdAt : ℤ} {author recipient body requestHash : Str}
    {idempotencyKey : Option Str} {result : StoredMessage × Bool}
    (h : KeyedOutcome t createdAt author recipient body requestHash idempotencyKey result t') :
    t'.bulletins = t.bulletins ∧ t'.bulletinSequence = t.bulletinSequence := by
  cases h with
  | unkeyed accepts =>
    obtain ⟨data, -, rfl⟩ := accepts.tables_eq
    exact ⟨rfl, rfl⟩
  | created _ accepts records =>
    obtain ⟨data, -, rfl⟩ := accepts.tables_eq
    obtain ⟨-, -, -, rfl⟩ := records
    exact ⟨rfl, rfl⟩
  | replayed => exact ⟨rfl, rfl⟩

/-- The API sequence stays an integer of the engine. -/
theorem KeyedOutcome.api_le {createdAt : ℤ} {author recipient body requestHash : Str}
    {idempotencyKey : Option Str} {result : StoredMessage × Bool}
    (h : KeyedOutcome t createdAt author recipient body requestHash idempotencyKey result t')
    (hle : t.apiMessageSequence ≤ maxSqliteInteger) : t'.apiMessageSequence ≤ maxSqliteInteger := by
  cases h with
  | unkeyed accepts =>
    have hnext := accepts.api_le
    obtain ⟨data, -, rfl⟩ := accepts.tables_eq
    exact hnext
  | created _ accepts records =>
    have hnext := accepts.api_le
    obtain ⟨data, -, rfl⟩ := accepts.tables_eq
    obtain ⟨-, -, -, rfl⟩ := records
    exact hnext
  | replayed => exact hle

/-- A call that stores a message has no effect, or the outcome of a keyed call. -/
theorem StoreCall.next_cases (h : t.Replayable) (call : StoreCall) : call.next t = t ∨
    ∃ createdAt author recipient body requestHash idempotencyKey result,
      KeyedOutcome t createdAt author recipient body requestHash idempotencyKey result
        (call.next t) := by
  cases call with
  | storeMessage createdAt author recipient body clock faults =>
    obtain ⟨herr, hok⟩ := storeMessage_spec t createdAt author recipient body clock faults
    obtain ⟨hnext, -⟩ :=
      run_discard (OpenQSP.storeMessage createdAt author recipient body clock faults) t
    simp only [next, run, hnext]
    rcases hrun : ((OpenQSP.storeMessage createdAt author recipient body clock faults).run t).1
      with e | sequence
    · exact .inl (herr e hrun)
    · obtain ⟨message, haccepts, -⟩ := hok sequence hrun
      exact .inr ⟨createdAt, author, recipient, body, [], none, _, .unkeyed haccepts⟩
  | storeMessageIdempotent createdAt author recipient body idempotencyKey requestHash clock
      faults =>
    obtain ⟨herr, hok⟩ := storeMessageIdempotent_spec h createdAt author recipient body
      idempotencyKey requestHash clock faults
    obtain ⟨hnext, -⟩ := run_discard (OpenQSP.storeMessageIdempotent createdAt author recipient
      body idempotencyKey requestHash clock faults) t
    simp only [next, run, hnext]
    rcases hrun : ((OpenQSP.storeMessageIdempotent createdAt author recipient body idempotencyKey
      requestHash clock faults).run t).1 with e | result
    · exact .inl (herr e hrun)
    · exact .inr ⟨_, _, _, _, _, _, _, hok result hrun⟩

theorem setDelivery_spec (t : Tables) (recipient : Str) (sequence : ℤ) (transport : Str)
    (status : DeliveryStatus) (deliveredAt : Option ℤ) (faults : Faults) :
    (∀ e, ((setDelivery recipient sequence transport status deliveredAt faults).run t).1 =
      .error e →
      ((setDelivery recipient sequence transport status deliveredAt faults).run t).2 = t) ∧
    ∀ changed,
      ((setDelivery recipient sequence transport status deliveredAt faults).run t).1 = .ok changed →
      ∃ deliveries, ((setDelivery recipient sequence transport status deliveredAt faults).run t).2 =
        { t with deliveries } := by
  refine run_closing_atomically (Q := fun _ t' => ∃ deliveries, t' = { t with deliveries })
    (Commits.step fun changed t₁ h => ?_) faults
  obtain ⟨deliveries, rfl⟩ := upsertDelivery_eq_ok h
  exact Commits.commit fun d hd => ⟨_, rfl, deliveries, hd⟩

end Calls

/-- A row with columns in range and an encoded body is decoded to the bulletin it stores. -/
theorem storedBulletin_of_encodeUtf8 {author title body : Str} {data : Bytes}
    {sequence createdAt acceptedAt : ℕ} (hbody : encodeUtf8 body = some data) (hpos : 1 ≤ sequence)
    (hmax : sequence ≤ maxU32) (hcreated : createdAt ≤ maxU32) :
    storedBulletin (sequence, ⟨createdAt, acceptedAt, author, title, data⟩) =
      .ok ⟨sequence, createdAt, acceptedAt, author, title, body⟩ := by
  simp only [storedBulletin, storedHeader, validateStoredU32_of_le false hpos hmax,
    validateStoredU32_of_le true (Nat.zero_le _) hcreated, Py.ok_bind, Py.pure_eq_ok,
    decodeUtf8_of_encodeUtf8 hbody]

theorem Publishes.entries {t t' : Tables} {createdAt : ℤ} {author title body : Str}
    {bulletin : StoredBulletin} (h : Publishes t createdAt author title body t' bulletin) :
    ∃ row : BulletinRow, t'.bulletins.entries = t.bulletins.entries ++
      [(t.bulletinSequence + 1, row)] ∧
      storedBulletin (t.bulletinSequence + 1, row) = .ok bulletin ∧
      t' = { t with
        bulletins := t'.bulletins
        bulletinSequence := t.bulletinSequence + 1 } := by
  obtain ⟨hle, hkey, ⟨-, hcreated⟩, heq, data, hdata, rfl⟩ := h
  refine ⟨_, OrderedDict.entries_set_of_notMem hkey _, ?_, rfl⟩
  rw [storedBulletin_of_encodeUtf8 hdata (Nat.le_add_left 1 _) hle hcreated]
  exact congrArg Except.ok heq.symm

theorem Tables.BulletinsConsistent.publish {t t' : Tables} {createdAt : ℤ} {author title body : Str}
    {bulletin : StoredBulletin} (h : t.BulletinsConsistent)
    (hpublishes : Publishes t createdAt author title body t' bulletin) :
      t'.BulletinsConsistent := by
  obtain ⟨row, hentries, hstored, htables⟩ := hpublishes.entries
  have hsequence : t'.bulletinSequence = t.bulletinSequence + 1 := by rw [htables]
  constructor
  · rw [hentries, List.map_append, h.sequences, hsequence, List.range'_concat]
    simp [Nat.add_comm]
  · intro e he
    rw [hentries] at he
    rcases List.mem_append.mp he with he | he
    · exact h.readable e he
    · rw [List.mem_singleton.mp he]
      exact ⟨bulletin, hstored⟩
  · rw [hsequence]
    exact hpublishes.sequence_le

theorem Tables.BulletinsConsistent.congr {t t' : Tables} (h : t.BulletinsConsistent)
    (hrows : t'.bulletins = t.bulletins) (hsequence : t'.bulletinSequence = t.bulletinSequence) :
    t'.BulletinsConsistent := by
  constructor
  · rw [hrows, hsequence]
    exact h.sequences
  · rw [hrows]
    exact h.readable
  · rw [hsequence]
    exact h.highest_le

/-! ### Runs of the database -/

namespace Tables

/-- The invariant of the whole database. -/
structure Sound (t : Tables) : Prop where
  messages : t.Consistent
  bulletins : t.BulletinsConsistent
  api_le : t.apiMessageSequence ≤ maxSqliteInteger

theorem sound_fresh : fresh.Sound :=
  ⟨consistent_fresh, bulletinsConsistent_fresh, Nat.zero_le _⟩

/-- Rows are only added, each behind those that were there. -/
structure Grows (t t' : Tables) : Prop where
  messages : t.messages.entries <+: t'.messages.entries
  bulletins : t.bulletins.entries <+: t'.bulletins.entries

theorem Grows.refl (t : Tables) : t.Grows t := ⟨List.prefix_refl _, List.prefix_refl _⟩

theorem Grows.trans {t t' t'' : Tables} (h : t.Grows t') (h' : t'.Grows t'') : t.Grows t'' :=
  ⟨h.messages.trans h'.messages, h.bulletins.trans h'.bulletins⟩

end Tables

/-- Storing a message keeps the invariant. -/
theorem KeyedOutcome.sound {t t' : Tables} {createdAt : ℤ} {author recipient body requestHash : Str}
    {idempotencyKey : Option Str} {result : StoredMessage × Bool}
    (houtcome : KeyedOutcome t createdAt author recipient body requestHash idempotencyKey result t')
    (h : t.Sound) : t'.Sound := by
  obtain ⟨hrows, hsequence⟩ := houtcome.bulletins
  exact ⟨(houtcome.preserves h.messages).1, h.bulletins.congr hrows hsequence,
    houtcome.api_le h.api_le⟩

/-- A call of one of the stores. -/
inductive DatabaseCall
  | message (call : StoreCall)
  | bulletin (createdAt : ℤ) (author title body : Str) (clock : ℤ) (faults : Faults)
  | delivery (recipient : Str) (sequence : ℤ) (transport : Str) (status : DeliveryStatus)
      (deliveredAt : Option ℤ) (faults : Faults)

namespace DatabaseCall

/-- The call as a method of the database; what it returns is dropped. -/
def run : DatabaseCall → Method PyError Tables Unit
  | message call => call.run
  | bulletin createdAt author title body clock faults =>
    discard (storeBulletin createdAt author title body clock faults)
  | delivery recipient sequence transport status deliveredAt faults =>
    discard (setDelivery recipient sequence transport status deliveredAt faults)

/-- The database after a call. -/
def next (t : Tables) (call : DatabaseCall) : Tables := (call.run.run t).2

open Tables

/-- Each call keeps the invariant, and the rows that are there. -/
theorem next_spec {t : Tables} (h : t.Sound) (call : DatabaseCall) :
    (call.next t).Sound ∧ t.Grows (call.next t) := by
  cases call with
  | message call =>
    obtain ⟨hconsistent, hkept, -⟩ := StoreCall.next_spec h.messages call
    rcases StoreCall.next_cases h.messages.replayable call with
      hnext | ⟨_, _, _, _, _, _, _, houtcome⟩
    · rw [next, show (message call).run.run t = call.run.run t from rfl, ← StoreCall.next, hnext]
      exact ⟨h, Grows.refl t⟩
    · refine ⟨houtcome.sound h, ⟨hkept.1, ?_⟩⟩
      show _ <+: (call.next t).bulletins.entries
      rw [houtcome.bulletins.1]
  | bulletin createdAt author title body clock faults =>
    obtain ⟨herr, hok⟩ := storeBulletin_spec t createdAt author title body clock faults
    obtain ⟨hnext, -⟩ := run_discard (storeBulletin createdAt author title body clock faults) t
    rw [next, run, hnext]
    rcases hrun : ((storeBulletin createdAt author title body clock faults).run t).1 with
      e | sequence
    · rw [herr e hrun]
      exact ⟨h, Grows.refl t⟩
    · obtain ⟨bulletin, hpublishes, -⟩ := hok sequence hrun
      obtain ⟨row, hentries, -, htables⟩ := hpublishes.entries
      refine ⟨⟨?_, h.bulletins.publish hpublishes, ?_⟩, ⟨?_, ?_⟩⟩
      · rw [htables]
        exact ⟨h.messages.api, h.messages.mailbox, h.messages.positive, h.messages.references,
          h.messages.readable, h.messages.recipients_encodable, h.messages.authors_encodable,
          h.messages.keys_encodable⟩
      · rw [htables]
        exact h.api_le
      · rw [htables]
      · rw [hentries]
        exact List.prefix_append _ _
  | delivery recipient sequence transport status deliveredAt faults =>
    obtain ⟨herr, hok⟩ := setDelivery_spec t recipient sequence transport status deliveredAt faults
    obtain ⟨hnext, -⟩ :=
      run_discard (setDelivery recipient sequence transport status deliveredAt faults) t
    rw [next, run, hnext]
    rcases hrun : ((setDelivery recipient sequence transport status deliveredAt faults).run t).1
      with e | changed
    · rw [herr e hrun]
      exact ⟨h, Grows.refl t⟩
    · obtain ⟨deliveries, ht'⟩ := hok changed hrun
      rw [ht']
      refine ⟨⟨?_, ⟨h.bulletins.sequences, h.bulletins.readable, h.bulletins.highest_le⟩, h.api_le⟩,
        ⟨List.prefix_refl _, List.prefix_refl _⟩⟩
      exact ⟨h.messages.api, h.messages.mailbox, h.messages.positive, h.messages.references,
          h.messages.readable, h.messages.recipients_encodable, h.messages.authors_encodable,
          h.messages.keys_encodable⟩

end DatabaseCall

/-- The database after the calls, on a new database. -/
def databaseState (calls : List DatabaseCall) : Tables := calls.foldl DatabaseCall.next Tables.fresh

/-- The calls keep the invariant, and the rows that are there. -/
theorem foldl_next {t : Tables} (h : t.Sound) (calls : List DatabaseCall) :
    (calls.foldl DatabaseCall.next t).Sound ∧ t.Grows (calls.foldl DatabaseCall.next t) := by
  induction calls generalizing t with
  | nil => exact ⟨h, Tables.Grows.refl t⟩
  | cons call calls ih =>
    obtain ⟨hsound, hgrows⟩ := call.next_spec h
    obtain ⟨hsound', hgrows'⟩ := ih hsound
    exact ⟨hsound', hgrows.trans hgrows'⟩

theorem sound_databaseState (calls : List DatabaseCall) : (databaseState calls).Sound :=
  (foldl_next Tables.sound_fresh calls).1

/-! ### The logs -/

namespace Tables

variable {t t' : Tables}

/-- The mailbox sequence of a message. -/
def mailboxPosition (e : (Str × ℕ) × MessageRow) : ℤ := e.1.2

/-- The API sequence of a message. -/
def apiPosition (e : (Str × ℕ) × MessageRow) : ℤ := e.2.apiSequence

/-- The sequence of a bulletin. -/
def bulletinPosition (e : ℕ × BulletinRow) : ℤ := e.1

/-- The high-water value of a mailbox. -/
def highest (t : Tables) (recipient : Str) : ℕ := (t.mailboxSequences.get? recipient).getD 0

theorem mailbox_eq_orderBy (t : Tables) (recipient : Str) : t.mailbox recipient =
    orderBy (fun e => e.1.2) (t.messages.entries.filter fun e => e.1.1 = recipient) := rfl

namespace Consistent

theorem contiguous_filter (h : t.Consistent) (recipient : Str) :
    Contiguous (fun e => e.1.2) (t.messages.entries.filter fun e => e.1.1 = recipient)
      (t.highest recipient) := h.mailbox recipient

/-- A mailbox is listed in insertion order. -/
theorem mailbox_eq (h : t.Consistent) (recipient : Str) :
    t.mailbox recipient = t.messages.entries.filter fun e => e.1.1 = recipient := by
  refine List.Pairwise.insertionSort_eq ((h.contiguous_filter recipient).ascending.imp
    fun hlt => ?_)
  exact (Int.ofNat_lt.mp hlt).le

theorem contiguous_mailbox (h : t.Consistent) (recipient : Str) :
    Contiguous (fun e => e.1.2) (t.mailbox recipient) (t.highest recipient) := by
  rw [h.mailbox_eq]
  exact h.contiguous_filter recipient

theorem ascending_mailbox (h : t.Consistent) (recipient : Str) :
    Ascending mailboxPosition (t.mailbox recipient) := (h.contiguous_mailbox recipient).ascending

theorem mem_mailbox (h : t.Consistent) {recipient : Str} {e : (Str × ℕ) × MessageRow} :
    e ∈ t.mailbox recipient ↔ e ∈ t.messages.entries ∧ e.1.1 = recipient := by
  rw [h.mailbox_eq, List.mem_filter, decide_eq_true_eq]

/-- The high-water value of a mailbox is an unsigned 32-bit value. -/
theorem highest_le (h : t.Consistent) (recipient : Str) : t.highest recipient ≤ maxU32 := by
  rcases Nat.eq_zero_or_pos (t.highest recipient) with hzero | hpos
  · rw [hzero]
    exact Nat.zero_le _
  · obtain ⟨e, he, hsequence⟩ := ((h.contiguous_mailbox recipient).mem_iff _).mpr ⟨hpos, le_rfl⟩
    obtain ⟨message, hmessage⟩ := h.readable e (h.mem_mailbox.mp he).1
    rw [← hsequence]
    exact (storedMessage_eq_ok hmessage).2.1

end Consistent

/-- The high-water value of a mailbox without gaps agrees with its messages. -/
theorem mailboxHighest_contiguous {recipient : Str}
    (hcontiguous : Contiguous (fun e => e.1.2) (t.mailbox recipient) (t.highest recipient))
    (hmax : t.highest recipient ≤ maxU32) :
    mailboxHighest (t.mailboxSequences.get? recipient)
      ((t.mailbox recipient).getLast?.map fun e => e.1.2) = .ok (t.highest recipient) := by
  rcases hget : t.mailboxSequences.get? recipient with _ | n
  · have hzero : t.highest recipient = 0 := by rw [Tables.highest, hget]; rfl
    have hnil : t.mailbox recipient = [] :=
      List.length_eq_zero_iff.mp (hcontiguous.length_eq.trans hzero)
    rw [hnil, hzero]
    rfl
  · have hn : t.highest recipient = n := by rw [Tables.highest, hget]; rfl
    rw [hn] at hmax hcontiguous ⊢
    simp only [mailboxHighest, validateStoredU32_of_le true (Nat.zero_le n) hmax, Py.ok_bind]
    rcases hlast : (t.mailbox recipient).getLast? with _ | e
    · rfl
    · have hle := hcontiguous.le (List.mem_of_getLast? hlast)
      simp only [Option.map_some, validateStoredU32_of_le false hle.1 (hle.2.trans hmax),
        Py.ok_bind,
        raiseIf_of_not (Nat.not_lt.mpr hle.2)]
      rfl

/-- What a mailbox grows by is beyond its high-water value. -/
theorem Grows.mailbox (hgrows : t.Grows t') (h : t.Consistent) (h' : t'.Consistent)
    (recipient : Str) : ∃ later, t'.mailbox recipient = t.mailbox recipient ++ later ∧
      ∀ e ∈ later, (t.highest recipient : ℤ) < mailboxPosition e := by
  obtain ⟨rest, hrest⟩ := hgrows.messages
  have happend : t'.mailbox recipient =
      t.mailbox recipient ++ rest.filter fun e => e.1.1 = recipient := by
    rw [h'.mailbox_eq, h.mailbox_eq, ← hrest, List.filter_append]
  have hcontiguous := h'.contiguous_mailbox recipient
  rw [happend] at hcontiguous
  refine ⟨_, happend, fun e he => Int.ofNat_lt.mpr ?_⟩
  exact (h.contiguous_mailbox recipient).lt_later hcontiguous he

theorem BulletinsConsistent.contiguous (h : t.BulletinsConsistent) :
    Contiguous (fun e => e.1) t.bulletins.entries t.bulletinSequence := h.sequences

theorem BulletinsConsistent.ascending (h : t.BulletinsConsistent) :
    Ascending bulletinPosition t.bulletins.entries := h.contiguous.ascending

theorem Grows.bulletinRows (hgrows : t.Grows t') (h : t.BulletinsConsistent)
    (h' : t'.BulletinsConsistent) : ∃ later, t'.bulletins.entries = t.bulletins.entries ++ later ∧
      ∀ e ∈ later, (t.bulletinSequence : ℤ) < bulletinPosition e := by
  obtain ⟨later, hlater⟩ := hgrows.bulletins
  have hcontiguous := h'.contiguous
  rw [← hlater] at hcontiguous
  exact ⟨later, hlater.symm, fun e he => Int.ofNat_lt.mpr (h.contiguous.lt_later hcontiguous he)⟩

/-- The messages to or from an account, in insertion order. -/
def apiLog (t : Tables) (callsign : Str) : List ((Str × ℕ) × MessageRow) :=
  t.messages.entries.filter fun e => e.2.author = callsign || e.1.1 = callsign

theorem Consistent.contiguous_api (h : t.Consistent) :
    Contiguous (fun e => e.2.apiSequence) t.messages.entries t.apiMessageSequence := h.api

theorem Consistent.ascending_apiLog (h : t.Consistent) (callsign : Str) :
    Ascending apiPosition (t.apiLog callsign) :=
  Ascending.sublist h.contiguous_api.ascending List.filter_sublist

theorem Grows.apiLog (hgrows : t.Grows t') (h : t.Consistent) (h' : t'.Consistent)
    (callsign : Str) : ∃ later, t'.apiLog callsign = t.apiLog callsign ++ later ∧
      ∀ e ∈ later, (t.apiMessageSequence : ℤ) < apiPosition e := by
  obtain ⟨rest, hrest⟩ := hgrows.messages
  have hcontiguous := h'.contiguous_api
  rw [← hrest] at hcontiguous
  refine ⟨rest.filter fun e => e.2.author = callsign || e.1.1 = callsign, ?_, fun e he => ?_⟩
  · rw [Tables.apiLog, Tables.apiLog, ← hrest, List.filter_append]
  · exact Int.ofNat_lt.mpr (h.contiguous_api.lt_later hcontiguous (List.mem_filter.mp he).1)

end Tables

end OpenQSP
