import OpenQSP.Storage.Counters
import OpenQSP.Storage.Migrated

/-!
# Mailbox order and API order

A store takes the next value of both sequences in one transaction, so what it stores comes last in
its mailbox and last on the node. Version 3 had no API sequence, and migration 4 numbers its
messages by the times at which they were accepted. These come from the wall clock, so the two orders
of a mailbox agree after the migration exactly when the clock did not go back between two of its
messages. Later stores neither break the agreement nor restore it.

## Main definitions

* `TablesV2.storeMessage`, `StoreV3`, `stateV3` — runs of version 3
* `TablesV2.Counted` — what is known of the rows of version 3
* `Tables.OrdersAgree` — both sequences order each mailbox in the same way
* `TablesV2.ClockOrdered` — the times of acceptance do not decrease along a mailbox

## Main results

* `ordersAgree_iff_clockOrdered` — what the migration does
* `foldl_ordersAgree` — what later calls do
* **`ordersAgree_migrated`** — both together, for every such database, so for every run of version 3
-/

namespace OpenQSP

open Tables

/-! ### Runs of version 3 -/

/-- What the first three migrations leave in a new database. -/
def TablesV2.fresh : TablesV2 where
  mailboxSequences := .empty
  messages := .empty
  bulletinSequence := 0
  bulletins := .empty

/-- The last value of a mailbox. -/
def TablesV2.highest (t : TablesV2) (recipient : Str) : ℕ :=
  (t.mailboxSequences.get? recipient).getD 0

/-- Storing a message in version 3: what `store_message` does, without the API sequence. -/
def TablesV2.storeMessage (createdAt : ℤ) (author recipient body : Str) (clock : ℤ) (t : TablesV2) :
    Py TablesV2 := do
  requireU32 "created_at" createdAt
  let bodyBytes ← encodeBody body
  let recipient ← bindText recipient
  raiseIf (t.highest recipient = maxU32) ⟨.sequenceExhaustedError, "mailbox sequence is exhausted"⟩
  let sequence := t.highest recipient + 1
  let acceptedAt ← validateClockValue clock
  let author ← bindText author
  return { t with
    mailboxSequences := t.mailboxSequences.set recipient sequence
    messages := t.messages.set (recipient, sequence) ⟨createdAt.toNat, acceptedAt, author,
      bodyBytes⟩ }

/-- A call of the store of version 3. -/
structure StoreV3 where
  createdAt : ℤ
  author : Str
  recipient : Str
  body : Str
  clock : ℤ

/-- The database after a call; one that raises, or that the engine refuses, changes nothing. -/
def StoreV3.next (t : TablesV2) (call : StoreV3) : TablesV2 :=
  match t.storeMessage call.createdAt call.author call.recipient call.body call.clock with
  | .ok t' => t'
  | .error _ => t

/-- The database of version 3 after the calls. -/
def stateV3 (calls : List StoreV3) : TablesV2 := calls.foldl StoreV3.next TablesV2.fresh

/-- The last values of the mailboxes are ahead of the rows, and the rows can be read. -/
structure TablesV2.Counted (t : TablesV2) : Prop where
  sequences : ∀ e ∈ t.messages.entries, 1 ≤ e.1.2 ∧ e.1.2 ≤ t.highest e.1.1
  highest_le : ∀ recipient, t.highest recipient ≤ maxU32
  created : ∀ e ∈ t.messages.entries, e.2.createdAt ≤ maxU32
  bodies : ∀ e ∈ t.messages.entries, ∃ body, decodeUtf8 e.2.body = some body
  texts : ∀ e ∈ t.messages.entries, (encodeUtf8 e.1.1).isSome ∧ (encodeUtf8 e.2.author).isSome

theorem TablesV2.counted_fresh : TablesV2.fresh.Counted where
  sequences _ h := by cases h
  highest_le _ := Nat.zero_le _
  created _ h := by cases h
  bodies _ h := by cases h
  texts _ h := by cases h

theorem TablesV2.Counted.storeMessage {t t' : TablesV2} (h : t.Counted) {createdAt clock : ℤ}
    {author recipient body : Str} (hstore : t.storeMessage createdAt author recipient body clock =
      .ok t') :
    t'.Counted := by
  simp only [TablesV2.storeMessage, Py.bind_eq_ok, requireU32, raiseIf_eq_ok, not_not,
    encodeBody_eq_ok, bindText_eq_ok] at hstore
  obtain ⟨_, hcreated, data, hdata, recipient, ⟨rfl, hrecipient⟩, _, hroom, acceptedAt, -, author,
    ⟨rfl, hauthor⟩, hstore⟩ := hstore
  obtain rfl := Except.ok.inj hstore
  have hhighest : ∀ r, TablesV2.highest { t with
      mailboxSequences := t.mailboxSequences.set recipient (t.highest recipient + 1)
      messages := t.messages.set (recipient, t.highest recipient + 1)
        ⟨createdAt.toNat, acceptedAt, author, data⟩ } r =
      if r = recipient then t.highest recipient + 1 else t.highest r := by
    intro r
    rw [TablesV2.highest, OrderedDict.get?_set]
    split <;> rfl
  have hmem := fun e => OrderedDict.mem_entries_set (d := t.messages) (e := e)
    (k := (recipient, t.highest recipient + 1)) (v := ⟨createdAt.toNat, acceptedAt, author, data⟩)
  refine ⟨fun e he => ?_, fun r => ?_, fun e he => ?_, fun e he => ?_, fun e he => ?_⟩
  · rw [hhighest]
    rcases (hmem e).mp he with rfl | ⟨he, -⟩
    · rw [if_pos rfl]
      exact ⟨Nat.le_add_left 1 _, le_rfl⟩
    · obtain ⟨hmin, hmax⟩ := h.sequences e he
      refine ⟨hmin, ?_⟩
      split
      · next hr => exact (hr ▸ hmax).trans (Nat.le_succ _)
      · exact hmax
  · rw [hhighest]
    have hle := h.highest_le recipient
    split
    · omega
    · exact h.highest_le r
  · rcases (hmem e).mp he with rfl | ⟨he, -⟩
    · exact Int.toNat_le.mpr hcreated.2
    · exact h.created e he
  · rcases (hmem e).mp he with rfl | ⟨he, -⟩
    · exact ⟨body, decodeUtf8_of_encodeUtf8 hdata⟩
    · exact h.bodies e he
  · rcases (hmem e).mp he with rfl | ⟨he, -⟩
    · exact ⟨hrecipient, hauthor⟩
    · exact h.texts e he

theorem counted_stateV3 (calls : List StoreV3) : (stateV3 calls).Counted := by
  have hrun : ∀ t : TablesV2, t.Counted → (calls.foldl StoreV3.next t).Counted := by
    induction calls with
    | nil => exact fun t h => h
    | cons call calls ih =>
      intro t h
      refine ih _ ?_
      rw [StoreV3.next]
      split
      · next hstore => exact h.storeMessage hstore
      · exact h
  exact hrun _ TablesV2.counted_fresh

/-! ### The migration -/

/-- Both sequences order the messages of a mailbox in the same way. -/
def Tables.OrdersAgree (t : Tables) : Prop :=
  ∀ e ∈ t.messages.entries, ∀ e' ∈ t.messages.entries, e.1.1 = e'.1.1 → e.1.2 < e'.1.2 →
    e.2.apiSequence < e'.2.apiSequence

/-- The times of acceptance do not decrease along a mailbox. -/
def TablesV2.ClockOrdered (t : TablesV2) : Prop :=
  ∀ e ∈ t.messages.entries, ∀ e' ∈ t.messages.entries, e.1.1 = e'.1.1 → e.1.2 < e'.1.2 →
    e.2.acceptedAt ≤ e'.2.acceptedAt

instance (t : TablesV2) : Decidable t.ClockOrdered :=
  inferInstanceAs (Decidable (∀ e ∈ _, ∀ e' ∈ _, _))

section Migration

variable {old : TablesV2} {new : Tables}

theorem textKey_inj {a b : Str} (ha : (encodeUtf8 a).isSome) (hb : (encodeUtf8 b).isSome)
    (h : textKey a = textKey b) : a = b := by
  obtain ⟨data, hdata⟩ := Option.isSome_iff_exists.mp ha
  obtain ⟨data', hdata'⟩ := Option.isSome_iff_exists.mp hb
  rw [textKey, textKey, hdata, hdata', Option.getD_some, Option.getD_some, blobKey_inj] at h
  subst h
  exact Option.some.inj ((decodeUtf8_of_encodeUtf8 hdata).symm.trans
    (decodeUtf8_of_encodeUtf8 hdata'))

/-- No two messages have one place in the order of the migration. -/
theorem TablesV2.Counted.nodup_apiOrderKey (h : old.Counted) :
    (old.messages.entries.map apiOrderKey).Nodup := by
  refine List.Nodup.map_on (fun e he e' he' heq => ?_) old.messages.nodup_keys.of_map
  obtain ⟨-, hrest⟩ := Prod.mk.inj (toLex.injective heq)
  obtain ⟨htext, hsequence⟩ := Prod.mk.inj (toLex.injective hrest)
  refine List.inj_on_of_nodup_map old.messages.nodup_keys he he' ?_
  exact Prod.ext (textKey_inj (h.texts e he).1 (h.texts e' he').1 htext) hsequence

/-- Within a mailbox, the order of the migration is that of the times of acceptance, and of the
sequences where these are equal. -/
theorem apiOrderKey_lt_iff {e e' : (Str × ℕ) × MessageRowV2} (h : e.1.1 = e'.1.1) :
    apiOrderKey e < apiOrderKey e' ↔ e.2.acceptedAt < e'.2.acceptedAt ∨
      e.2.acceptedAt = e'.2.acceptedAt ∧ e.1.2 < e'.1.2 := by
  rw [apiOrderKey, apiOrderKey, Prod.Lex.toLex_lt_toLex, Prod.Lex.toLex_lt_toLex, h]
  simp

/-- The orders agree after the migration exactly when the clock was ordered before it. -/
theorem ordersAgree_iff_clockOrdered (hold : old.Counted) (h : AddsApi old new) :
    new.OrdersAgree ↔ old.ClockOrdered := by
  have hnumbered : ∀ e ∈ old.messages.entries, ∃ n,
      (e, n) ∈ rowNumbers (fun _ => ()) (orderBy apiOrderKey old.messages.entries) := by
    intro e he
    rw [← (orderBy_perm apiOrderKey _).mem_iff, ← map_fst_rowNumbers (fun _ => ())
      (orderBy apiOrderKey old.messages.entries)] at he
    obtain ⟨⟨_, n⟩, hmem, rfl⟩ := List.mem_map.mp he
    exact ⟨n, hmem⟩
  have hlt := fun (e e' : ((Str × ℕ) × MessageRowV2) × ℕ)
      (he : e ∈ rowNumbers (fun _ => ()) (orderBy apiOrderKey old.messages.entries))
      (he' : e' ∈ rowNumbers (fun _ => ()) (orderBy apiOrderKey old.messages.entries)) =>
    rowNumber_lt_iff hold.nodup_apiOrderKey he he'
  constructor
  · intro hagree e he e' he' hmailbox hsequence
    obtain ⟨n, hn⟩ := hnumbered e he
    obtain ⟨n', hn'⟩ := hnumbered e' he'
    have hnumbers : n < n' := hagree (MessageRowV2.copy (e, n))
      (h.messages ▸ List.mem_map_of_mem hn)
      (MessageRowV2.copy (e', n')) (h.messages ▸ List.mem_map_of_mem hn') hmailbox hsequence
    have hkeys := (hlt (e, n) (e', n') hn hn').mp hnumbers
    rw [apiOrderKey_lt_iff hmailbox] at hkeys
    exact hkeys.elim le_of_lt fun heq => heq.1.le
  · intro hclock e he e' he' hmailbox hsequence
    rw [h.messages] at he he'
    obtain ⟨⟨row, n⟩, hn, rfl⟩ := List.mem_map.mp he
    obtain ⟨⟨row', n'⟩, hn', rfl⟩ := List.mem_map.mp he'
    have htimes := hclock row (mem_of_mem_rowNumbers hn) row' (mem_of_mem_rowNumbers hn') hmailbox
      hsequence
    refine (hlt (row, n) (row', n') hn hn').mpr ((apiOrderKey_lt_iff hmailbox).mpr ?_)
    exact htimes.lt_or_eq.imp_right fun heq => ⟨heq, hsequence⟩

/-- The counters are ahead of the rows after the migration. -/
theorem AddsApi.counted (hold : old.Counted) (h : AddsApi old new) : new.Counted := by
  have hmem : ∀ e ∈ new.messages.entries, dropApi e ∈ old.messages.entries := by
    intro e he
    rw [← (orderBy_perm apiOrderKey _).mem_iff, ← h.map_dropApi]
    exact List.mem_map_of_mem he
  have hhighest : ∀ r, new.highest r = old.highest r := by
    intro r
    rw [Tables.highest, h.mailboxSequences]
    rfl
  refine ⟨⟨?_, fun e he => ?_⟩, fun e he => ?_, fun e he => (h.contiguous_api.le he).2, ?_,
    fun e he => hold.texts _ (hmem e he)⟩
  · rw [h.idempotency]
    exact fun e he => by cases he
  · obtain ⟨hmin, hmax⟩ := hold.sequences _ (hmem e he)
    obtain ⟨body, hbody⟩ := hold.bodies _ (hmem e he)
    exact ⟨_, storedMessage_of_decodeUtf8 hbody hmin (hmax.trans (hold.highest_le _))
      (hold.created _ (hmem e he))⟩
  · rw [hhighest]
    exact (hold.sequences _ (hmem e he)).2
  · have hapi := h.contiguous_api
    rw [Contiguous] at hapi
    rw [hapi]
    exact List.nodup_range'

end Migration

/-! ### Later calls -/

/-- One message beyond all others changes nothing in the order of the others. -/
theorem ordersAgree_next {t : Tables} (h : t.Counted) (call : DatabaseCall) :
    (call.next t).OrdersAgree ↔ t.OrdersAgree := by
  rcases (call.next_rows h).2 with hmessages | ⟨last, hentries, hbeyond⟩
  · rw [Tables.OrdersAgree, Tables.OrdersAgree, hmessages]
  rw [Tables.OrdersAgree, hentries]
  constructor
  · intro hagree e he e' he'
    exact hagree e (List.mem_append_left _ he) e' (List.mem_append_left _ he')
  · intro hagree e he e' he' hmailbox hsequence
    rw [List.mem_append, List.mem_singleton] at he he'
    rcases he with he | rfl
    · rcases he' with he' | rfl
      · exact hagree e he e' he' hmailbox hsequence
      · exact (h.apis_le e he).trans_lt hbeyond.api
    · -- Nothing in the mailbox is beyond the last message.
      rcases he' with he' | rfl
      · have hle := h.sequences_le e' he'
        have hlt := hbeyond.sequence
        rw [hmailbox] at hlt
        omega
      · exact absurd hsequence (lt_irrefl _)

theorem foldl_ordersAgree {t : Tables} (h : t.Counted) (calls : List DatabaseCall) :
    (calls.foldl DatabaseCall.next t).OrdersAgree ↔ t.OrdersAgree := by
  induction calls generalizing t with
  | nil => exact Iff.rfl
  | cons call calls ih => exact (ih (call.next_rows h).1).trans (ordersAgree_next h call)

/-- When the orders agree, a mailbox is the part of the API listing with its messages. -/
theorem Tables.OrdersAgree.mailbox_eq {t : Tables} (hagree : t.OrdersAgree) (recipient : Str) :
    t.mailbox recipient =
      orderBy (fun e => e.2.apiSequence) (t.messages.entries.filter fun e =>
        e.1.1 = recipient) := by
  have hkeys : ((t.messages.entries.filter fun e => e.1.1 = recipient).map fun e =>
    e.1.2).Nodup := by
    refine List.Nodup.map_on (fun e he e' he' heq => ?_) (t.messages.nodup_keys.of_map.filter _)
    rw [List.mem_filter, decide_eq_true_eq] at he he'
    refine List.inj_on_of_nodup_map t.messages.nodup_keys he.1 he'.1 ?_
    exact Prod.ext (he.2.trans he'.2.symm) heq
  rw [mailbox_eq_orderBy]
  refine (orderBy_eq_of_pairwise (orderBy_perm _ _) ?_).symm
  refine (pairwise_lt_orderBy hkeys).imp_of_mem fun he he' hlt => ?_
  rw [mem_orderBy, List.mem_filter, decide_eq_true_eq] at he he'
  exact hagree _ he.1 _ he'.1 (he.2.trans he'.2.symm) hlt

/-! ### From version 3 on -/

/-- The migration of a version 3 database. -/
theorem TablesV2.Counted.exists_migrated {old : TablesV2} (hold : old.Counted) : ∃ new,
    (migrate 3 []).run (.v3 old) = (.ok (), .v5 new) ∧ AddsApi old new := by
  obtain ⟨last, hlast⟩ := exists_migration4 old fun e he => by
    obtain ⟨hmin, hmax⟩ := hold.sequences e he
    refine ⟨⟨hmin, hmax.trans (hold.highest_le _)⟩, ⟨Int.natCast_nonneg _, ?_⟩,
      Int.natCast_nonneg _⟩
    exact_mod_cast hold.created e he
  refine ⟨migration5 last, ?_, migration4_eq_ok hlast⟩
  rw [migrate_v3, hlast]

/-- **Mailbox order and API order.** For any database of version 3 whose counters are ahead of its
rows, and such is every one in which messages were stored, the migration succeeds, and in every
later state the two orders agree if and only if the times of acceptance did not decrease along any
mailbox. Then a mailbox is listed in the same way by both sequences. -/
theorem ordersAgree_migrated (old : TablesV2) :
    (∀ stores, old = stateV3 stores → old.Counted) ∧
    (old.Counted → ∃ new,
      (migrate 3 []).run (.v3 old) = (.ok (), .v5 new) ∧ ∀ calls : List DatabaseCall,
        ((calls.foldl DatabaseCall.next new).OrdersAgree ↔ old.ClockOrdered) ∧
        (old.ClockOrdered → ∀ recipient,
          (calls.foldl DatabaseCall.next new).mailbox recipient =
            orderBy (fun e => e.2.apiSequence) ((calls.foldl DatabaseCall.next
              new).messages.entries.filter fun e => e.1.1 = recipient))) := by
  refine ⟨fun stores hstores => hstores ▸ counted_stateV3 stores, fun hold => ?_⟩
  obtain ⟨new, hrun, h4⟩ := hold.exists_migrated
  refine ⟨new, hrun, fun calls => ?_⟩
  have hagree := (foldl_ordersAgree (h4.counted hold) calls).trans
    (ordersAgree_iff_clockOrdered hold h4)
  exact ⟨hagree, fun hclock => (hagree.mpr hclock).mailbox_eq⟩

/-- Two messages to one mailbox, the second one accepted while the clock was behind. -/
def clockBack : List StoreV3 :=
  [⟨1700000000, str "EA1ABC", str "K1XYZ", str "first", 1700000010⟩,
    ⟨1700000000, str "EA1ABC", str "K1XYZ", str "second", 1700000005⟩]

/-- The orders disagree after the migration when the clock went back, whatever is stored later. -/
theorem ordersAgree_not_migrated : ∃ new,
    (migrate 3 []).run (.v3 (stateV3 clockBack)) = (.ok (), .v5 new) ∧
      ∀ calls : List DatabaseCall, ¬(calls.foldl DatabaseCall.next new).OrdersAgree := by
  have hold := counted_stateV3 clockBack
  obtain ⟨new, hrun, h4⟩ := hold.exists_migrated
  refine ⟨new, hrun, fun calls => ?_⟩
  rw [foldl_ordersAgree (h4.counted hold) calls, ordersAgree_iff_clockOrdered hold h4]
  decide +kernel

end OpenQSP
