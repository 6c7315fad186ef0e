import Mathlib.Tactic.Linarith
import Mathlib.Tactic.Ring
import OpenQSP.Storage.Availability
import OpenQSP.Storage.Migrations

/-!
# What the migrations preserve

A database of the first version is migrated in two steps that change rows: the second version
numbers the messages of each mailbox and the bulletins anew, in the order of their sequences, and
the fourth adds the columns of the API. Each mailbox keeps its messages in their order, and the
counters go on behind them.

## Main definitions

* `Renumbers`, `AddsApi` — what each of the two steps does
* `Preserves` — what is preserved of the rows
* `Continues` — the numbering goes on behind them

## Main results

* `exists_migrated` — the migration succeeds where every mailbox fits its numbers
* **`migrate_preserves`**
-/

namespace OpenQSP

open Tables

/-! ### Comparing blobs -/

theorem foldl_bigEndian (data : Bytes) (a : ℕ) :
    data.foldl (fun value byte => value * 256 + byte.toNat) a =
      a * 256 ^ data.length + fromBigEndian data := by
  induction data generalizing a with
  | nil => simp [fromBigEndian]
  | cons b data ih =>
    rw [fromBigEndian, List.foldl_cons, List.foldl_cons, ih, ih (0 * 256 + b.toNat),
      List.length_cons,
      pow_succ]
    ring

theorem fromBigEndian_cons (b : UInt8) (data : Bytes) :
    fromBigEndian (b :: data) = b.toNat * 256 ^ data.length + fromBigEndian data := by
  rw [fromBigEndian, List.foldl_cons, foldl_bigEndian, Nat.zero_mul, Nat.zero_add]

/-- Blobs of one length are compared as the numbers they encode. -/
theorem blobKey_lt_iff {a b : Bytes} (h : a.length = b.length) :
    blobKey a < blobKey b ↔ fromBigEndian a < fromBigEndian b := by
  induction a generalizing b with
  | nil =>
    obtain rfl := List.length_eq_zero_iff.mp h.symm
    simp [blobKey]
  | cons x a ih =>
    obtain ⟨y, b, rfl⟩ := List.exists_cons_of_length_eq_add_one h.symm
    have hlength : a.length = b.length := Nat.succ.inj h
    have ha := fromBigEndian_lt a
    have hb := fromBigEndian_lt b
    rw [fromBigEndian_cons, fromBigEndian_cons, ← hlength]
    rw [← hlength] at hb
    show x.toNat :: blobKey a < y.toNat :: blobKey b ↔ _
    rw [List.cons_lt_cons_iff, ih hlength]
    rcases Nat.lt_trichotomy x.toNat y.toNat with hlt | heq | hgt
    · refine iff_of_true (.inl hlt) ?_
      nlinarith [Nat.mul_le_mul_right (256 ^ a.length) hlt]
    · simp [heq]
    · refine iff_of_false (by omega) ?_
      nlinarith [Nat.mul_le_mul_right (256 ^ a.length) hgt]

theorem blobKey_inj {a b : Bytes} : blobKey a = blobKey b ↔ a = b :=
  (List.map_injective_iff.mpr fun _ _ h => UInt8.toNat_inj.mp h).eq_iff

/-! ### Copying rows -/

theorem insertAll_eq_ok {κ ν : Type} [DecidableEq κ] {rows : List (κ × ν)} {d : OrderedDict κ ν}
    (h : insertAll rows = .ok d) : d.entries = rows := by
  rw [insertAll] at h
  split at h
  · rw [← Except.ok.inj h]
  · cases h

theorem exists_insertAll {κ ν : Type} [DecidableEq κ] (rows : List (κ × ν))
    (h : (rows.map Prod.fst).Nodup) : ∃ d, insertAll rows = .ok d ∧ d.entries = rows :=
  ⟨⟨rows, h⟩, dif_pos h, rfl⟩

/-- The greatest of the first numbers is their count. -/
theorem foldr_max_range' (n : ℕ) : (List.range' 1 n).foldr max 0 = n := by
  induction n with
  | zero => rfl
  | succ n ih =>
    have hfold : ∀ (l : List ℕ) (a : ℕ), l.foldr max a = max (l.foldr max 0) a := by
      intro l a
      induction l with
      | nil => simp
      | cons b l ihl => simp [ihl, max_assoc]
    rw [List.range'_concat, List.foldr_append, hfold, ih]
    simp
    omega

/-- The last value of a mailbox that is numbered without gaps is its size. -/
theorem get?_lastValues {keys : List (Str × ℕ)} {recipient : Str} {n : ℕ}
    (h : (keys.filter fun k => k.1 = recipient).map Prod.snd = List.range' 1 n) :
    (lastValues keys).get? recipient = if n = 0 then none else some n := by
  split
  · next hzero =>
    subst hzero
    rw [OrderedDict.get?_eq_none_iff, OrderedDict.keys, lastValues, List.map_map, List.mem_map]
    rintro ⟨recipient', hmem, rfl⟩
    obtain ⟨k, hk, rfl⟩ := List.mem_map.mp (List.mem_dedup.mp hmem)
    have hnil := List.map_eq_nil_iff.mp h
    exact absurd hk fun hk => by simpa using List.filter_eq_nil_iff.mp hnil k hk
  · next hpos =>
    rw [OrderedDict.get?_eq_some_iff, lastValues, List.mem_map]
    refine ⟨recipient, List.mem_dedup.mpr ?_, by rw [h, foldr_max_range']⟩
    have hmem : 1 ∈ (keys.filter fun k => k.1 = recipient).map Prod.snd := by
      rw [h, List.mem_range'_1]
      omega
    obtain ⟨k, hk, -⟩ := List.mem_map.mp hmem
    obtain ⟨hk, hrecipient⟩ := List.mem_filter.mp hk
    exact List.mem_map.mpr ⟨k, hk, of_decide_eq_true hrecipient⟩

/-! ### From version 1 to version 2 -/

/-- What migration 2 writes. -/
structure Renumbers (old : TablesV1) (new : TablesV2) : Prop where
  messages : new.messages.entries =
    (rowNumbers MessageRowV1.recipient (orderBy MessageRowV1.orderKey old.messages)).map
      MessageRowV1.copy
  fits : ∀ e ∈ rowNumbers MessageRowV1.recipient (orderBy MessageRowV1.orderKey old.messages),
    FitsV2 e.2 e.1.createdAt e.1.acceptedAt
  last : new.mailboxSequences = lastValues new.messages.keys
  bulletins : new.bulletins.entries =
    (rowNumbers (fun _ => ()) (orderBy BulletinRowV1.orderKey old.bulletins)).map BulletinRowV1.copy
  bulletinsFit : ∀ e ∈ rowNumbers (fun _ => ()) (orderBy BulletinRowV1.orderKey old.bulletins),
    FitsV2 e.2 e.1.createdAt e.1.acceptedAt
  bulletinSequence : new.bulletinSequence = old.bulletins.length

section Version2

variable {old : TablesV1} {new : TablesV2}

theorem migration2_eq_ok (h : migration2 old = .ok new) : Renumbers old new := by
  simp only [migration2, Py.bind_eq_ok, raiseIf_eq_ok, not_exists, not_and, not_not] at h
  obtain ⟨_, hfits, messages, hmessages, _, -, _, hbulletinsFit, bulletins, hbulletins, _, -, h⟩ :=
    h
  obtain rfl := Except.ok.inj h
  have hentries := insertAll_eq_ok hbulletins
  refine ⟨insertAll_eq_ok hmessages, hfits, rfl, hentries, hbulletinsFit, ?_⟩
  show bulletins.entries.length = _
  rw [hentries, List.length_map, length_rowNumbers, (orderBy_perm _ _).length_eq]

/-- The size of a mailbox of version 1. -/
def TablesV1.mailboxSize (t : TablesV1) (recipient : Str) : ℕ :=
  t.messages.countP fun row => row.recipient = recipient

theorem countP_orderBy_messages (recipient : Str) :
    (orderBy MessageRowV1.orderKey old.messages).countP (fun row => row.recipient = recipient) =
      old.mailboxSize recipient := (orderBy_perm _ _).countP_eq _

/-- A renumbered mailbox lists the rows of the old one in their order. -/
theorem filter_copy {messages : OrderedDict (Str × ℕ) MessageRowV2}
    (h : messages.entries = (rowNumbers MessageRowV1.recipient
      (orderBy MessageRowV1.orderKey old.messages)).map MessageRowV1.copy) (recipient : Str) :
    messages.entries.filter (fun e => e.1.1 = recipient) =
      ((rowNumbers MessageRowV1.recipient (orderBy MessageRowV1.orderKey old.messages)).filter
        fun e => e.1.recipient = recipient).map MessageRowV1.copy := by
  rw [h, List.filter_map]
  rfl

/-- It is numbered without gaps. -/
theorem contiguous_copy {messages : OrderedDict (Str × ℕ) MessageRowV2}
    (h : messages.entries = (rowNumbers MessageRowV1.recipient
      (orderBy MessageRowV1.orderKey old.messages)).map MessageRowV1.copy) (recipient : Str) :
    Contiguous (fun e => e.1.2) (messages.entries.filter fun e => e.1.1 = recipient)
      (old.mailboxSize recipient) := by
  rw [Contiguous, filter_copy h, List.map_map, ← countP_orderBy_messages, ← map_snd_rowNumbers]
  rfl

theorem filter_keys (messages : OrderedDict (Str × ℕ) MessageRowV2) (recipient : Str) :
    (messages.keys.filter fun k => k.1 = recipient).map Prod.snd =
      (messages.entries.filter fun e => e.1.1 = recipient).map fun e => e.1.2 := by
  rw [OrderedDict.keys, List.filter_map, List.map_map]
  rfl

theorem get?_lastValues_copy {messages : OrderedDict (Str × ℕ) MessageRowV2}
    (h : messages.entries = (rowNumbers MessageRowV1.recipient
      (orderBy MessageRowV1.orderKey old.messages)).map MessageRowV1.copy) (recipient : Str) :
    (lastValues messages.keys).get? recipient =
      if old.mailboxSize recipient = 0 then none else some (old.mailboxSize recipient) :=
  get?_lastValues ((filter_keys messages recipient).trans (contiguous_copy h recipient))

theorem mem_of_mem_rowNumbers {α κ ρ : Type} [DecidableEq κ] [LinearOrder ρ] {partition : α → κ}
    {key : α → ρ} {rows : List α} {e : α × ℕ} (h : e ∈ rowNumbers partition (orderBy key rows)) :
    e.1 ∈ rows := by
  rw [← (orderBy_perm key rows).mem_iff, ← map_fst_rowNumbers partition (orderBy key rows)]
  exact List.mem_map_of_mem h

/-- The migration succeeds when the timestamps and the numbers are unsigned 32-bit values. -/
theorem exists_migration2
    (hmessages : ∀ row ∈ old.messages, (0 ≤ row.createdAt ∧ row.createdAt ≤ maxU32) ∧
      0 ≤ row.acceptedAt)
    (hbulletins : ∀ row ∈ old.bulletins,
      (0 ≤ row.createdAt ∧ row.createdAt ≤ maxU32) ∧ 0 ≤ row.acceptedAt)
    (hsizes : ∀ recipient, old.mailboxSize recipient ≤ maxU32)
      (hsize : old.bulletins.length ≤ maxU32) :
    ∃ new, migration2 old = .ok new := by
  have hfits : ∀ e ∈ rowNumbers MessageRowV1.recipient (orderBy MessageRowV1.orderKey old.messages),
      FitsV2 e.2 e.1.createdAt e.1.acceptedAt := by
    intro e he
    obtain ⟨hcreated, haccepted⟩ := hmessages _ (mem_of_mem_rowNumbers he)
    obtain ⟨hmin, hmax⟩ := rowNumber_mem he
    rw [countP_orderBy_messages] at hmax
    exact ⟨⟨hmin, hmax.trans (hsizes _)⟩, hcreated, haccepted⟩
  have hfits' : ∀ e ∈ rowNumbers (fun _ => ()) (orderBy BulletinRowV1.orderKey old.bulletins),
      FitsV2 e.2 e.1.createdAt e.1.acceptedAt := by
    intro e he
    obtain ⟨hcreated, haccepted⟩ := hbulletins _ (mem_of_mem_rowNumbers he)
    obtain ⟨hmin, hmax⟩ := rowNumber_mem he
    have hcount : (orderBy BulletinRowV1.orderKey old.bulletins).countP (fun _ => () = ()) =
        old.bulletins.length := by simp [(orderBy_perm BulletinRowV1.orderKey
          old.bulletins).length_eq]
    exact ⟨⟨hmin, (hmax.trans hcount.le).trans hsize⟩, hcreated, haccepted⟩
  obtain ⟨messages, hinsert, hentries⟩ := exists_insertAll (
    (rowNumbers MessageRowV1.recipient (orderBy MessageRowV1.orderKey old.messages)).map
      MessageRowV1.copy) (by
    rw [List.map_map]
    exact nodup_rowNumbers _)
  obtain ⟨bulletins, hinsert', hentries'⟩ := exists_insertAll (
    (rowNumbers (fun _ => ()) (orderBy BulletinRowV1.orderKey old.bulletins)).map
      BulletinRowV1.copy) (by
    rw [List.map_map]
    show ((rowNumbers (fun _ => ()) _).map Prod.snd).Nodup
    rw [map_snd_rowNumbers_single]
    exact List.nodup_range')
  have hlast : ∀ e ∈ (lastValues messages.keys).entries, e.2 ≤ maxU32 := by
    intro e he
    have hget := OrderedDict.get?_eq_some_iff.mpr he
    rw [get?_lastValues_copy hentries] at hget
    split at hget
    · cases hget
    · rw [← Option.some.inj hget]
      exact hsizes _
  refine ⟨⟨lastValues messages.keys, messages, bulletins.size, bulletins⟩, ?_⟩
  have hlength : bulletins.size ≤ maxU32 := by
    rw [OrderedDict.size, hentries', List.length_map, length_rowNumbers,
      (orderBy_perm _ _).length_eq]
    exact hsize
  simp only [migration2, hinsert, hinsert']
  rw [raiseIf_of_not (by simpa using hfits), Py.ok_bind, Py.ok_bind,
    raiseIf_of_not (by simpa using hlast), Py.ok_bind, raiseIf_of_not (by simpa using hfits'),
    Py.ok_bind, Py.ok_bind, raiseIf_of_not (not_lt.mpr hlength)]
  rfl

/-- A mailbox that is too large stops the migration. -/
theorem migration2_error (recipient : Str) (h : maxU32 < old.mailboxSize recipient) :
    migration2 old = .error (constraintFailed "CHECK") := by
  have hmem : old.mailboxSize recipient ∈ ((rowNumbers MessageRowV1.recipient
      (orderBy MessageRowV1.orderKey old.messages)).filter
        fun e => e.1.recipient = recipient).map Prod.snd := by
    rw [map_snd_rowNumbers, countP_orderBy_messages, List.mem_range'_1]
    omega
  obtain ⟨e, he, hnumber⟩ := List.mem_map.mp hmem
  have hexists : ∃ e ∈ rowNumbers MessageRowV1.recipient
        (orderBy MessageRowV1.orderKey old.messages),
      ¬FitsV2 e.2 e.1.createdAt e.1.acceptedAt := by
    refine ⟨e, (List.mem_filter.mp he).1, fun hfits => ?_⟩
    have hmax := hfits.1.2
    omega
  simp only [migration2]
  rw [raiseIf, if_pos hexists]
  rfl

end Version2

/-! ### From version 3 to version 5 -/

/-- What migrations 4 and 5 write. -/
structure AddsApi (old : TablesV2) (new : Tables) : Prop where
  messages : new.messages.entries =
    (rowNumbers (fun _ => ()) (orderBy apiOrderKey old.messages.entries)).map MessageRowV2.copy
  mailboxSequences : new.mailboxSequences = old.mailboxSequences
  api : new.apiMessageSequence = old.messages.size
  idempotency : new.apiIdempotency = .empty
  deliveries : new.deliveries = .empty
  bulletins : new.bulletins = old.bulletins
  bulletinSequence : new.bulletinSequence = old.bulletinSequence

/-- A message without its API sequence. -/
def dropApi (e : (Str × ℕ) × MessageRow) : (Str × ℕ) × MessageRowV2 :=
  (e.1, ⟨e.2.createdAt, e.2.acceptedAt, e.2.author, e.2.body⟩)

section Version5

variable {old : TablesV2} {new : Tables}

theorem migration4_eq_ok {middle : TablesV4} (h : migration4 old = .ok middle) :
    AddsApi old (migration5 middle) := by
  simp only [migration4, Py.bind_eq_ok, raiseIf_eq_ok] at h
  obtain ⟨_, -, _, -, messages, hmessages, h⟩ := h
  obtain rfl := Except.ok.inj h
  have hentries := insertAll_eq_ok hmessages
  refine ⟨hentries, rfl, ?_, rfl, rfl, rfl, rfl⟩
  show messages.entries.length = _
  rw [hentries, List.length_map, length_rowNumbers, (orderBy_perm _ _).length_eq]
  rfl

variable (old) in
theorem exists_migration4
    (h : ∀ e ∈ old.messages.entries, FitsV2 e.1.2 e.2.createdAt e.2.acceptedAt) :
    ∃ middle, migration4 old = .ok middle := by
  have hfits : ∀ e ∈ rowNumbers (fun _ => ()) (orderBy apiOrderKey old.messages.entries),
      ¬(¬FitsV2 e.1.1.2 e.1.2.createdAt e.1.2.acceptedAt ∨ e.2 = 0) := by
    rintro e he (hnot | hzero)
    · exact hnot (h _ (mem_of_mem_rowNumbers he))
    · have hmin := (rowNumber_mem he).1
      omega
  have hnumbers : ((rowNumbers (fun _ => ()) (orderBy apiOrderKey old.messages.entries)).map
      Prod.snd).Nodup := by
    rw [map_snd_rowNumbers_single]
    exact List.nodup_range'
  obtain ⟨messages, hinsert, -⟩ := exists_insertAll (
    (rowNumbers (fun _ => ()) (orderBy apiOrderKey old.messages.entries)).map MessageRowV2.copy) (by
    have hkeys : (rowNumbers (fun _ => ()) (orderBy apiOrderKey old.messages.entries)).map
        (Prod.fst ∘ MessageRowV2.copy) = (orderBy apiOrderKey old.messages.entries).map
          Prod.fst := by
      rw [← map_fst_rowNumbers (fun _ => ()) (orderBy apiOrderKey old.messages.entries),
        List.map_map, map_fst_rowNumbers]
      rfl
    rw [List.map_map, hkeys, ((orderBy_perm _ _).map Prod.fst).nodup_iff]
    exact old.messages.nodup_keys)
  refine ⟨⟨old.mailboxSequences, messages.size, messages, .empty, old.bulletinSequence,
    old.bulletins⟩, ?_⟩
  simp only [migration4, hinsert]
  rw [raiseIf_of_not (by simpa using hfits), Py.ok_bind, raiseIf_of_not (not_not.mpr hnumbers)]
  rfl

/-- The API sequences are the numbers of the listing. -/
theorem AddsApi.contiguous_api (h : AddsApi old new) :
    Contiguous (fun e => e.2.apiSequence) new.messages.entries new.apiMessageSequence := by
  rw [Contiguous, h.messages, List.map_map, h.api, OrderedDict.size,
    ← (orderBy_perm apiOrderKey old.messages.entries).length_eq, ← map_snd_rowNumbers_single]
  rfl

theorem AddsApi.map_dropApi (h : AddsApi old new) :
    new.messages.entries.map dropApi = orderBy apiOrderKey old.messages.entries := by
  conv_rhs => rw [← map_fst_rowNumbers (fun _ => ()) (orderBy _ _)]
  rw [h.messages, List.map_map]
  rfl

/-- A mailbox holds the same rows under the same sequences. -/
theorem AddsApi.mailbox (h : AddsApi old new) {recipient : Str}
    (hordered : (old.messages.entries.filter fun e => e.1.1 = recipient).Pairwise
      fun e e' => e.1.2 < e'.1.2) :
    (new.mailbox recipient).map dropApi = old.messages.entries.filter fun e =>
      e.1.1 = recipient := by
  have hfilter : (new.messages.entries.filter fun e => e.1.1 = recipient).map dropApi =
      (orderBy apiOrderKey old.messages.entries).filter fun e => e.1.1 = recipient := by
    rw [← h.map_dropApi, List.filter_map]
    rfl
  calc (new.mailbox recipient).map dropApi
    _ = orderBy (fun e => e.1.2)
        ((new.messages.entries.filter fun e => e.1.1 = recipient).map dropApi) := by
      rw [mailbox_eq_orderBy]
      exact map_orderBy (fun e => e.1.2) (fun e => e.1.2) dropApi (fun _ => rfl) _
    _ = old.messages.entries.filter fun e => e.1.1 = recipient := by
      rw [hfilter]
      exact orderBy_eq_of_pairwise ((orderBy_perm _ _).filter _).symm hordered

end Version5

/-! ### All migrations -/

/-- One migration in the transaction. -/
theorem run_migration (version : ℕ) (d s : Schema) :
    (Session.execute fun schema => return ((), ← migration version schema)).run ⟨d, some s, []⟩ =
      match migration version s with
      | .ok s' => (.ok (), ⟨d, some s', []⟩)
      | .error e => (.error e, ⟨d, some s, []⟩) := by
  rw [Session.run_execute]
  rcases migration version s <;> rfl

/-- Migrating a database of version 3 without failures. -/
theorem migrate_v3 (old : TablesV2) : (migrate 3 []).run (.v3 old) =
    match migration4 old with
    | .error e => (.error e, .v3 old)
    | .ok last => (.ok (), .v5 (migration5 last)) := by
  have hloop : ∀ f : ℕ → Session PyError Schema Unit,
      (List.range' (3 + 1) (latestSchemaVersion - 3)).forM f = (do f 4; f 5) := by
    intro f
    show (do f 4; f 5; pure ()) = _
    simp
  rw [migrate, raiseIf_of_not (by decide), Method.run_ofExcept_ok_bind,
    Session.run_closing_atomically_nil, hloop]
  rcases hlast : migration4 old with e | last
  · have hfourth : migration 4 (.v3 old) = .error e := by rw [migration, hlast]; rfl
    simp only [Method.run_bind, run_migration, hfourth]
  · have hfourth : migration 4 (.v3 old) = .ok (.v4 last) := by rw [migration, hlast]; rfl
    have hfifth : migration 5 (.v4 last) = .ok (.v5 (migration5 last)) := rfl
    simp only [Method.run_bind, run_migration, hfourth, hfifth]
    rfl

/-- Migrating a database of version 1 without failures. -/
theorem migrate_v1 (old : TablesV1) : (migrate 1 []).run (.v1 old) =
    match migration2 old with
    | .error e => (.error e, .v1 old)
    | .ok middle => match migration4 middle with
      | .error e => (.error e, .v1 old)
      | .ok last => (.ok (), .v5 (migration5 last)) := by
  have hloop : ∀ f : ℕ → Session PyError Schema Unit,
      (List.range' (1 + 1) (latestSchemaVersion - 1)).forM f = (do f 2; f 3; f 4; f 5) := by
    intro f
    show (do f 2; f 3; f 4; f 5; pure ()) = _
    simp
  rw [migrate, raiseIf_of_not (by decide), Method.run_ofExcept_ok_bind,
    Session.run_closing_atomically_nil, hloop]
  rcases hmiddle : migration2 old with e | middle
  · have hsecond : migration 2 (.v1 old) = .error e := by rw [migration, hmiddle]; rfl
    simp only [Method.run_bind, run_migration, hsecond]
  have hsecond : migration 2 (.v1 old) = .ok (.v2 middle) := by rw [migration, hmiddle]; rfl
  have hthird : migration 3 (.v2 middle) = .ok (.v3 middle) := rfl
  rcases hlast : migration4 middle with e | last
  · have hfourth : migration 4 (.v3 middle) = .error e := by rw [migration, hlast]; rfl
    simp only [Method.run_bind, run_migration, hsecond, hthird, hfourth, hlast]
  · have hfourth : migration 4 (.v3 middle) = .ok (.v4 last) := by rw [migration, hlast]; rfl
    have hfifth : migration 5 (.v4 last) = .ok (.v5 (migration5 last)) := rfl
    simp only [Method.run_bind, run_migration, hsecond, hthird, hfourth, hfifth, hlast]
    rfl

/-! ### What is preserved -/

/-- The order of two rows of version 1, by their sequences and then their identifiers. -/
def RowBefore (sequence id sequence' id' : Bytes) : Prop :=
  fromBigEndian sequence < fromBigEndian sequence' ∨
    sequence = sequence' ∧ fromBigEndian id < fromBigEndian id'

/-- The columns of a message that a migration must not change. -/
def MessageRowV1.content (row : MessageRowV1) : Str × ℤ × ℤ × Str × Bytes :=
  (row.recipient, row.createdAt, row.acceptedAt, row.author, row.body)

def MessageRowV2.content (e : (Str × ℕ) × MessageRowV2) : Str × ℤ × ℤ × Str × Bytes :=
  (e.1.1, e.2.createdAt, e.2.acceptedAt, e.2.author, e.2.body)

def messageContent (e : (Str × ℕ) × MessageRow) : Str × ℤ × ℤ × Str × Bytes :=
  (e.1.1, e.2.createdAt, e.2.acceptedAt, e.2.author, e.2.body)

/-- The columns of a bulletin that a migration must not change. -/
def BulletinRowV1.content (row : BulletinRowV1) : ℤ × ℤ × Str × Str × Bytes :=
  (row.createdAt, row.acceptedAt, row.author, row.title, row.body)

def bulletinContent (e : ℕ × BulletinRow) : ℤ × ℤ × Str × Str × Bytes :=
  (e.2.createdAt, e.2.acceptedAt, e.2.author, e.2.title, e.2.body)

/-- The new tables hold the old messages and bulletins, renumbered in their old order. -/
structure Preserves (old : TablesV1) (new : Tables) : Prop where
  /-- The same messages. -/
  messages : (new.messages.entries.map messageContent).Perm (old.messages.map MessageRowV1.content)
  /-- A mailbox is numbered `1, …, n` in the old order. -/
  mailboxes : ∀ recipient, ∃ rows : List MessageRowV1,
    rows.Perm (old.messages.filter fun row => row.recipient = recipient) ∧
    rows.Pairwise (fun row row' => RowBefore row.sequence row.messageId row'.sequence
      row'.messageId) ∧
    (new.mailbox recipient).map (fun e => e.1.2) = List.range' 1 rows.length ∧
    (new.mailbox recipient).map messageContent = rows.map MessageRowV1.content
  /-- The high-water value of a mailbox is `n`. -/
  last : ∀ recipient, new.mailboxSequences.get? recipient =
    if old.mailboxSize recipient = 0 then none else some (old.mailboxSize recipient)
  /-- The API sequences are `1, …, N`. -/
  api : (new.messages.entries.map fun e => e.2.apiSequence).Perm (List.range' 1 old.messages.length)
  apiLast : new.apiMessageSequence = old.messages.length
  /-- The bulletins are numbered `1, …, b` in the old order. -/
  bulletins : ∃ rows : List BulletinRowV1, rows.Perm old.bulletins ∧
    rows.Pairwise (fun row row' => RowBefore row.sequence row.bulletinId row'.sequence
      row'.bulletinId) ∧
    (orderBy Prod.fst new.bulletins.entries).map Prod.fst = List.range' 1 rows.length ∧
    (orderBy Prod.fst new.bulletins.entries).map bulletinContent = rows.map BulletinRowV1.content
  bulletinSequence : new.bulletinSequence = old.bulletins.length

section Preserved

variable {old : TablesV1} {middle : TablesV2} {new : Tables}

theorem toLex_blobKey_lt {sequence id sequence' id' : Bytes}
    (hsequence : sequence.length = sequence'.length)
    (hid : id.length = id'.length)
    (h : toLex (blobKey sequence, blobKey id) < toLex (blobKey sequence', blobKey id')) :
    RowBefore sequence id sequence' id' := by
  rw [Prod.Lex.toLex_lt_toLex] at h
  simp only [blobKey_lt_iff hsequence, blobKey_lt_iff hid, blobKey_inj] at h
  exact h

/-- The listing of an object table of version 1 is in the order of its sequences and identifiers. -/
theorem ObjectRows.pairwise {α : Type} {rows : List α} {sequence id : α → Bytes}
    {createdAt acceptedAt : α → ℤ} {type : ObjectType}
    (h : ObjectRows old rows sequence id createdAt acceptedAt type) :
    (orderBy (fun row => (toLex (blobKey (sequence row), blobKey (id row)) : List ℕ ×ₗ List ℕ))
      rows).Pairwise
      fun row row' => RowBefore (sequence row) (id row) (sequence row') (id row') := by
  have hkeys : (rows.map fun row =>
      (toLex (blobKey (sequence row), blobKey (id row)) : List ℕ ×ₗ List ℕ)).Nodup := by
    refine List.Nodup.map_on ?_ h.ids_unique.of_map
    intro row hrow row' hrow' heq
    refine List.inj_on_of_nodup_map h.ids_unique hrow hrow' ?_
    exact blobKey_inj.mp (Prod.mk.inj (toLex.injective heq)).2
  refine (pairwise_lt_orderBy hkeys).imp_of_mem fun hrow hrow' hlt => ?_
  rw [mem_orderBy] at hrow hrow'
  refine toLex_blobKey_lt ?_ ?_ hlt
  · rw [(h.sequences_blob _ hrow).1, (h.sequences_blob _ hrow').1]
  · rw [h.ids_blob _ hrow, h.ids_blob _ hrow']

/-- A copied message has the content of its row. -/
theorem content_copy {e : MessageRowV1 × ℕ} (h : FitsV2 e.2 e.1.createdAt e.1.acceptedAt) :
    MessageRowV2.content (MessageRowV1.copy e) = e.1.content := by
  simp only [MessageRowV2.content, MessageRowV1.copy, MessageRowV1.content,
    Int.toNat_of_nonneg h.2.1.1, Int.toNat_of_nonneg h.2.2]

theorem bulletinContent_copy {e : BulletinRowV1 × ℕ} (h : FitsV2 e.2 e.1.createdAt e.1.acceptedAt) :
    bulletinContent (BulletinRowV1.copy e) = e.1.content := by
  simp only [bulletinContent, BulletinRowV1.copy, BulletinRowV1.content,
    Int.toNat_of_nonneg h.2.1.1, Int.toNat_of_nonneg h.2.2]

/-- What is copied keeps its content, row by row. -/
theorem map_content_copy {l : List (MessageRowV1 × ℕ)}
    (h : ∀ e ∈ l, FitsV2 e.2 e.1.createdAt e.1.acceptedAt) :
    (l.map MessageRowV1.copy).map MessageRowV2.content =
      (l.map Prod.fst).map MessageRowV1.content := by
  rw [List.map_map, List.map_map]
  exact List.map_congr_left fun e he => content_copy (h e he)

theorem map_bulletinContent_copy {l : List (BulletinRowV1 × ℕ)}
    (h : ∀ e ∈ l, FitsV2 e.2 e.1.createdAt e.1.acceptedAt) :
    (l.map BulletinRowV1.copy).map bulletinContent =
      (l.map Prod.fst).map BulletinRowV1.content := by
  rw [List.map_map, List.map_map]
  exact List.map_congr_left fun e he => bulletinContent_copy (h e he)

theorem AddsApi.map_content (l : List ((Str × ℕ) × MessageRow)) :
    l.map messageContent = (l.map dropApi).map MessageRowV2.content := by
  rw [List.map_map]
  rfl

/-- The rows of a mailbox after both migrations. -/
theorem mailbox_migrated (h2 : Renumbers old middle) (h4 : AddsApi middle new) (recipient : Str) :
    (new.mailbox recipient).map dropApi =
      ((rowNumbers MessageRowV1.recipient (orderBy MessageRowV1.orderKey old.messages)).filter
        fun e => e.1.recipient = recipient).map MessageRowV1.copy := by
  have hcontiguous := contiguous_copy h2.messages recipient
  have hordered : (middle.messages.entries.filter fun e => e.1.1 = recipient).Pairwise
      fun e e' => e.1.2 < e'.1.2 := hcontiguous.ascending.imp fun hlt => Int.ofNat_lt.mp hlt
  rw [h4.mailbox hordered, filter_copy h2.messages]

theorem preserves (hold : old.Constraints) (h2 : Renumbers old middle) (h4 : AddsApi middle new) :
    Preserves old new where
  messages := by
    rw [AddsApi.map_content, h4.map_dropApi]
    refine ((orderBy_perm _ _).map _).trans ?_
    rw [h2.messages, map_content_copy h2.fits, map_fst_rowNumbers]
    exact (orderBy_perm _ _).map _
  mailboxes recipient := by
    refine ⟨(orderBy MessageRowV1.orderKey old.messages).filter fun row =>
      row.recipient = recipient,
      (orderBy_perm _ _).filter _, hold.messages.pairwise.filter _, ?_, ?_⟩
    · have hnumbers : (new.mailbox recipient).map (fun e => e.1.2) =
          ((new.mailbox recipient).map dropApi).map fun e => e.1.2 := by
        rw [List.map_map]
        rfl
      rw [hnumbers, mailbox_migrated h2 h4, ← List.countP_eq_length_filter, ← map_snd_rowNumbers,
        List.map_map]
      rfl
    · rw [AddsApi.map_content, mailbox_migrated h2 h4,
        map_content_copy fun e he => h2.fits e (List.mem_filter.mp he).1,
        ← filter_rowNumbers MessageRowV1.recipient]
  last recipient := by
    rw [h4.mailboxSequences, h2.last]
    exact get?_lastValues_copy h2.messages recipient
  api := by
    rw [h4.contiguous_api, h4.api, OrderedDict.size, h2.messages, List.length_map,
      length_rowNumbers,
      (orderBy_perm _ _).length_eq]
  apiLast := by
    rw [h4.api, OrderedDict.size, h2.messages, List.length_map, length_rowNumbers,
      (orderBy_perm _ _).length_eq]
  bulletins := by
    have hnumbers : new.bulletins.entries.map Prod.fst = List.range' 1 old.bulletins.length := by
      rw [h4.bulletins, h2.bulletins, List.map_map,
        ← (orderBy_perm BulletinRowV1.orderKey _).length_eq,
        ← map_snd_rowNumbers_single]
      rfl
    have hlisted : orderBy Prod.fst new.bulletins.entries = new.bulletins.entries := by
      refine orderBy_eq_of_pairwise (List.Perm.refl _) ?_
      have hrange := List.pairwise_lt_range' (s := 1) (n := old.bulletins.length)
      rwa [← hnumbers, List.pairwise_map] at hrange
    refine ⟨orderBy BulletinRowV1.orderKey old.bulletins, orderBy_perm _ _, hold.bulletins.pairwise,
      ?_, ?_⟩
    · rw [hlisted, hnumbers, (orderBy_perm _ _).length_eq]
    · rw [hlisted, h4.bulletins, h2.bulletins, map_bulletinContent_copy h2.bulletinsFit,
        map_fst_rowNumbers]
  bulletinSequence := h4.bulletinSequence.trans h2.bulletinSequence

end Preserved

/-! ### How the stores continue -/

section Continuing

variable {old : TablesV1} {middle : TablesV2} {new : Tables} {t : Tables}

/-- A mailbox without gaps whose rows can be decoded is read without an integrity error. -/
theorem getNewMessages_raises {callsign : Str}
    (hcontiguous : Contiguous (fun e => e.1.2) (t.mailbox callsign) (t.highest callsign))
    (hmax : t.highest callsign ≤ maxU32)
    (hreadable : ∀ e ∈ t.mailbox callsign, ∃ message, storedMessage e = .ok message)
      (since limit : ℤ) :
    Raises (fun e => e.cls ≠ .storageIntegrityError) (getNewMessages callsign since limit t) := by
  have hvalue : ErrorClass.valueError ≠ .storageIntegrityError := by decide
  refine Raises.bind (Raises.check hvalue) fun _ => Raises.bind (Raises.check hvalue) fun _ => ?_
  refine Raises.bind_of ?_ fun state hstate => ?_
  · rw [mailboxSequence, bindText]
    split
    · exact Raises.ok _
    · exact Raises.error (by decide)
  rw [mailboxSequence_eq_ok hstate, mailboxHighest_contiguous hcontiguous hmax, Py.ok_bind]
  have hcursor : ErrorClass.invalidCursorError ≠ .storageIntegrityError := by decide
  refine Raises.bind (Raises.check hcursor) fun _ =>
    Raises.bind (Raises.mapM fun e he => ?_) fun _ => Raises.ok _
  obtain ⟨message, hmessage⟩ := hreadable e
    (List.mem_filter.mp (List.mem_of_mem_take (List.mem_of_mem_take he))).1
  rw [storedMessage_withoutApi hmessage]
  exact Raises.ok _

theorem getNewBulletins_raises (hmax : t.bulletinSequence ≤ maxU32)
    (hreadable : ∀ e ∈ t.bulletins.entries, ∃ header, storedHeader e = .ok header)
      (since limit : ℤ) :
    Raises (fun e => e.cls ≠ .storageIntegrityError) (getNewBulletins since limit t) := by
  refine Raises.bind (Raises.check nofun) fun _ => Raises.bind (Raises.check nofun) fun _ => ?_
  rw [validateStoredU32_of_le true (Nat.zero_le _) hmax, Py.ok_bind]
  refine Raises.bind (Raises.check nofun) fun _ => Raises.bind (Raises.mapM fun e he => ?_) fun _ =>
    Raises.ok _
  have hsorted := (List.mem_insertionSort _).mp (List.mem_of_mem_take (List.mem_of_mem_take he))
  obtain ⟨header, hheader⟩ := hreadable e (List.mem_filter.mp hsorted).1
  rw [hheader]
  exact Raises.ok _

/-- A migrated message is a copy of an old one. -/
theorem exists_old_message (h2 : Renumbers old middle) (h4 : AddsApi middle new)
    {e : (Str × ℕ) × MessageRow} (he : e ∈ new.messages.entries) :
    ∃ row ∈ old.messages, FitsV2 e.1.2 row.createdAt row.acceptedAt ∧
      dropApi e = MessageRowV1.copy (row, e.1.2) := by
  have hmem : dropApi e ∈ middle.messages.entries := by
    rw [← (orderBy_perm apiOrderKey _).mem_iff, ← h4.map_dropApi]
    exact List.mem_map_of_mem he
  rw [h2.messages] at hmem
  obtain ⟨⟨row, number⟩, hnumbered, hcopy⟩ := List.mem_map.mp hmem
  have hnumber : number = e.1.2 := congrArg (fun e => e.1.2) hcopy
  subst hnumber
  exact ⟨row, mem_of_mem_rowNumbers hnumbered, h2.fits _ hnumbered, hcopy.symm⟩

theorem Preserves.highest (h : Preserves old new) (recipient : Str) :
    new.highest recipient = old.mailboxSize recipient := by
  rw [Tables.highest, h.last]
  split
  · next hzero => exact hzero.symm
  · rfl

theorem Preserves.contiguous (h : Preserves old new) (recipient : Str) :
    Contiguous (fun e => e.1.2) (new.mailbox recipient) (new.highest recipient) := by
  obtain ⟨rows, hperm, -, hnumbers, -⟩ := h.mailboxes recipient
  rw [Contiguous, hnumbers, h.highest, hperm.length_eq, ← List.countP_eq_length_filter]
  rfl

theorem Preserves.countsFor (h : Preserves old new) (hold : old.Constraints) {recipient : Str}
    (hsize : old.mailboxSize recipient ≤ maxU32) : new.CountsFor recipient where
  highest_le := (h.highest recipient).le.trans hsize
  api_lt := by
    rw [h.apiLast]
    exact hold.messages.capacity
  sequences_le e he hrecipient := by
    refine ((h.contiguous recipient).le (a := e) ?_).2
    rw [mailbox_eq_orderBy, mem_orderBy, List.mem_filter]
    exact ⟨he, decide_eq_true hrecipient⟩
  apis_le e he := by
    have hmem := h.api.subset (List.mem_map_of_mem he)
    rw [List.mem_range'_1] at hmem
    rw [h.apiLast]
    omega

/-- The stores continue from the new tables: nothing that can be read is reported as corrupt, and
the next message and the next bulletin get the next numbers. -/
structure Continues (old : TablesV1) (new : Tables) : Prop where
  messages : ∀ callsign,
    (∀ row ∈ old.messages, row.recipient = callsign → (decodeUtf8 row.body).isSome) →
    ∀ since limit,
      Raises (fun e => e.cls ≠ .storageIntegrityError) (getNewMessages callsign since limit new)
  bulletins : ∀ since limit,
    Raises (fun e => e.cls ≠ .storageIntegrityError) (getNewBulletins since limit new)
  nextMessage : ∀ {createdAt clock : ℤ} {author recipient body : Str},
    old.mailboxSize recipient < maxU32 → 0 ≤ createdAt ∧ createdAt ≤ maxU32 →
    (encodeUtf8 body).isSome → (encodeUtf8 author).isSome → (encodeUtf8 recipient).isSome →
    0 ≤ clock ∧ clock ≤ maxSqliteInteger →
    ((storeMessage createdAt author recipient body clock []).run new).1 =
      .ok (old.mailboxSize recipient + 1)
  nextBulletin : ∀ {createdAt clock : ℤ} {author title body : Str},
    old.bulletins.length < maxU32 → 0 ≤ createdAt ∧ createdAt ≤ maxU32 →
    (encodeUtf8 body).isSome → (encodeUtf8 author).isSome → (encodeUtf8 title).isSome →
    0 ≤ clock ∧ clock ≤ maxSqliteInteger →
    ((storeBulletin createdAt author title body clock []).run new).1 =
      .ok (old.bulletins.length + 1)

theorem continues (hold : old.Constraints) (hsizes : ∀ recipient,
    old.mailboxSize recipient ≤ maxU32)
    (hsize : old.bulletins.length ≤ maxU32) (h2 : Renumbers old middle) (h4 : AddsApi middle new) :
    Continues old new := by
  have hpreserves := preserves hold h2 h4
  refine ⟨fun callsign hbodies => ?_, ?_, ?_, ?_⟩
  · refine getNewMessages_raises (hpreserves.contiguous callsign)
      ((hpreserves.highest callsign).le.trans (hsizes callsign)) fun e he => ?_
    rw [mailbox_eq_orderBy, mem_orderBy, List.mem_filter, decide_eq_true_eq] at he
    obtain ⟨row, hrow, hfits, hcopy⟩ := exists_old_message h2 h4 he.1
    simp only [dropApi, MessageRowV1.copy, Prod.mk.injEq, MessageRowV2.mk.injEq] at hcopy
    obtain ⟨hkey, hcreated, -, -, hbody⟩ := hcopy
    obtain ⟨text, htext⟩ := Option.isSome_iff_exists.mp
      (hbodies row hrow ((congrArg Prod.fst hkey).symm.trans he.2))
    have hcreatedAt : e.2.createdAt ≤ maxU32 := by
      rw [hcreated]
      exact Int.toNat_le.mpr hfits.2.1.2
    exact ⟨_, storedMessage_of_decodeUtf8 (by rwa [hbody]) hfits.1.1 hfits.1.2 hcreatedAt⟩
  · refine getNewBulletins_raises (by rwa [hpreserves.bulletinSequence]) fun e he => ?_
    rw [h4.bulletins, h2.bulletins] at he
    obtain ⟨numbered, hnumbered, rfl⟩ := List.mem_map.mp he
    obtain ⟨hnumber, hcreated, -⟩ := h2.bulletinsFit _ hnumbered
    refine ⟨⟨numbered.2, numbered.1.createdAt.toNat, numbered.1.author, numbered.1.title⟩, ?_⟩
    simp only [storedHeader, BulletinRowV1.copy, validateStoredU32_of_le false hnumber.1 hnumber.2,
      validateStoredU32_of_le true (Nat.zero_le _) (Int.toNat_le.mpr hcreated.2), Py.ok_bind]
    rfl
  · intro createdAt clock author recipient body hroom hcreated hbody hauthor hrecipient hclock
    rw [storeMessage_run_of_countsFor (hpreserves.countsFor hold (hsizes recipient)) hcreated hbody
      hauthor hrecipient hclock, if_neg (by rw [hpreserves.highest]; exact hroom.ne)]
    show Except.ok (new.highest recipient + 1) = _
    rw [hpreserves.highest]
  · intro createdAt clock author title body hroom hcreated hbody hauthor htitle hclock
    have hkeys : ∀ e ∈ new.bulletins.entries, e.1 ≤ new.bulletinSequence := by
      intro e he
      obtain ⟨rows, hperm, -, hnumbers, -⟩ := hpreserves.bulletins
      have hmem : e.1 ∈ (orderBy Prod.fst new.bulletins.entries).map Prod.fst :=
        List.mem_map_of_mem (mem_orderBy.mpr he)
      rw [hnumbers, List.mem_range'_1, hperm.length_eq] at hmem
      rw [hpreserves.bulletinSequence]
      omega
    rw [storeBulletin_run (by rwa [hpreserves.bulletinSequence]) hkeys hcreated hbody hauthor htitle
      hclock, if_neg (by rw [hpreserves.bulletinSequence]; exact hroom.ne),
        hpreserves.bulletinSequence]

end Continuing

/-- The migrations of a version 1 database succeed when its timestamps and the new numbers are
unsigned 32-bit values. -/
theorem exists_migrated {old : TablesV1} (hold : old.Constraints)
    (hmessages : ∀ row ∈ old.messages, row.createdAt ≤ maxU32)
    (hbulletins : ∀ row ∈ old.bulletins, row.createdAt ≤ maxU32)
    (hsizes : ∀ recipient, old.mailboxSize recipient ≤ maxU32)
      (hsize : old.bulletins.length ≤ maxU32) :
    ∃ middle new, (migrate 1 []).run (.v1 old) = (.ok (), .v5 new) ∧ Renumbers old middle ∧
      AddsApi middle new := by
  obtain ⟨middle, hmiddle⟩ := exists_migration2
    (fun row hrow => ⟨⟨(hold.messages.created row hrow).1, hmessages row hrow⟩,
      (hold.messages.accepted row hrow).1⟩)
    (fun row hrow => ⟨⟨(hold.bulletins.created row hrow).1, hbulletins row hrow⟩,
      (hold.bulletins.accepted row hrow).1⟩) hsizes hsize
  have h2 := migration2_eq_ok hmiddle
  obtain ⟨last, hlast⟩ := exists_migration4 middle fun e he => by
    rw [h2.messages] at he
    obtain ⟨numbered, hnumbered, rfl⟩ := List.mem_map.mp he
    obtain ⟨hnumber, hcreated, haccepted⟩ := h2.fits _ hnumbered
    refine ⟨hnumber, ⟨Int.natCast_nonneg _, ?_⟩, Int.natCast_nonneg _⟩
    exact_mod_cast Int.toNat_le.mpr hcreated.2
  refine ⟨middle, migration5 last, ?_, h2, migration4_eq_ok hlast⟩
  rw [migrate_v1, hmiddle]
  simp only [hlast]

/-- **The migration of a version 1 database.** -/
theorem migrate_preserves (old : TablesV1) (hold : old.Constraints)
    (hmessages : ∀ row ∈ old.messages, row.createdAt ≤ maxU32)
    (hbulletins : ∀ row ∈ old.bulletins, row.createdAt ≤ maxU32)
    (hsizes : ∀ recipient, old.mailboxSize recipient ≤ maxU32)
    (hsize : old.bulletins.length ≤ maxU32) :
    ∃ new, (migrate 1 []).run (.v1 old) = (.ok (), .v5 new) ∧ Preserves old new ∧
      Continues old new := by
  obtain ⟨middle, new, hrun, h2, h4⟩ := exists_migrated hold hmessages hbulletins hsizes hsize
  exact ⟨new, hrun, preserves hold h2 h4, continues hold hsizes hsize h2 h4⟩

/-- A database of version 1 with `n` messages to `K1XYZ`, all with the same body. -/
def mailboxOf (n : ℕ) (h : n < 256 ^ 8) (body : Bytes) : TablesV1 where
  objects := ⟨(List.range n).map fun i => (toBigEndian 8 (i + 1), .message), by
    rw [List.map_map]
    refine List.Nodup.map_on (fun i hi j hj heq => ?_) List.nodup_range
    rw [List.mem_range] at hi hj
    have hvalue := congrArg fromBigEndian heq
    simp only [Function.comp_apply] at hvalue
    rw [fromBigEndian_toBigEndian (by omega), fromBigEndian_toBigEndian (by omega)] at hvalue
    omega⟩
  messagesLast := toBigEndian 8 n
  bulletinsLast := toBigEndian 8 0
  messages := (List.range n).map fun i => ⟨toBigEndian 8 (i + 1), toBigEndian 8 (i + 1), 1700000000,
    1700000000, str "EA1ABC", str "K1XYZ", body, []⟩
  bulletins := []

theorem mailboxOf_constraints (n : ℕ) (h : n < 256 ^ 8) (hcapacity : n < maxSqliteInteger)
    (body : Bytes) : (mailboxOf n h body).Constraints := by
  have hkeys : ((List.range n).map fun i => toBigEndian 8 (i + 1)).Nodup := by
    have hnodup := (mailboxOf n h body).objects.nodup_keys
    rw [mailboxOf, List.map_map] at hnodup
    exact hnodup
  have hobject : ∀ i < n, (mailboxOf n h body).objects.get? (toBigEndian 8 (i + 1)) =
    some .message := by
    intro i hi
    rw [OrderedDict.get?_eq_some_iff]
    exact List.mem_map_of_mem (List.mem_range.mpr hi)
  have hclock : (0 : ℤ) ≤ 1700000000 ∧ (1700000000 : ℤ) ≤ maxSqliteInteger := by decide
  refine ⟨?_, ⟨by simp [mailboxOf], by simp [mailboxOf]⟩, ⟨?_, ?_, ?_, ?_, ?_, ?_, ?_, ?_⟩, ?_⟩
  · intro id hid
    simp only [mailboxOf, OrderedDict.keys, List.map_map, List.mem_map] at hid
    obtain ⟨i, -, rfl⟩ := hid
    simp
  · rw [mailboxOf, List.map_map]
    exact hkeys
  · intro row hrow
    obtain ⟨i, hi, rfl⟩ := List.mem_map.mp hrow
    rw [List.mem_range] at hi
    refine ⟨length_toBigEndian 8 _, (blobKey_lt_iff (by simp)).mpr ?_⟩
    rw [fromBigEndian_toBigEndian (by omega)]
    exact Nat.succ_pos i
  · rw [mailboxOf, List.map_map]
    exact hkeys
  · intro row hrow
    obtain ⟨i, -, rfl⟩ := List.mem_map.mp hrow
    simp
  · intro row hrow
    obtain ⟨i, -, rfl⟩ := List.mem_map.mp hrow
    exact hclock
  · intro row hrow
    obtain ⟨i, -, rfl⟩ := List.mem_map.mp hrow
    exact hclock
  · intro row hrow
    obtain ⟨i, hi, rfl⟩ := List.mem_map.mp hrow
    exact hobject i (List.mem_range.mp hi)
  · simpa [mailboxOf] using hcapacity
  · exact ⟨by simp [mailboxOf], by simp [mailboxOf], by simp [mailboxOf], by simp [mailboxOf],
      by simp [mailboxOf], by simp [mailboxOf], by simp [mailboxOf],
        by simp [mailboxOf, maxSqliteInteger]⟩

theorem mailboxOf_created (n : ℕ) (h : n < 256 ^ 8) (body : Bytes) :
    ∀ row ∈ (mailboxOf n h body).messages, row.createdAt ≤ maxU32 := by
  intro row hrow
  obtain ⟨i, -, rfl⟩ := List.mem_map.mp hrow
  show (1700000000 : ℤ) ≤ maxU32
  decide

theorem mailboxOf_size (n : ℕ) (h : n < 256 ^ 8) (body : Bytes) (recipient : Str) :
    (mailboxOf n h body).mailboxSize recipient = if recipient = str "K1XYZ" then n else 0 := by
  rw [TablesV1.mailboxSize, mailboxOf, List.countP_map]
  by_cases hrecipient : recipient = str "K1XYZ"
  · rw [if_pos hrecipient]
    refine (List.countP_eq_length.mpr fun i _ => ?_).trans List.length_range
    exact decide_eq_true hrecipient.symm
  · rw [if_neg hrecipient, List.countP_eq_zero]
    exact fun i _ heq => hrecipient (of_decide_eq_true heq).symm

theorem migrate_preserves_two : ∃ new,
    (migrate 1 []).run (.v1 (mailboxOf 2 (by decide) [55, 51])) = (.ok (), .v5 new) ∧
      new.highest (str "K1XYZ") = 2 := by
  have hold := mailboxOf_constraints 2 (by decide) (by decide) [55, 51]
  obtain ⟨new, hrun, hpreserves, -⟩ := migrate_preserves (mailboxOf 2 (by decide) [55, 51]) hold
    (mailboxOf_created _ _ _) (by decide) (fun recipient => by
      rw [mailboxOf_size]
      split <;> decide) (by decide)
  refine ⟨new, hrun, ?_⟩
  rw [hpreserves.highest, mailboxOf_size, if_pos rfl]

/-- The migration of such a database. -/
theorem exists_migrated_mailboxOf (n : ℕ) (h : n < 256 ^ 8) (hmax : n ≤ maxU32) (body : Bytes) :
    ∃ new, (migrate 1 []).run (.v1 (mailboxOf n h body)) = (.ok (), .v5 new) ∧
      Preserves (mailboxOf n h body) new := by
  have hold := mailboxOf_constraints n h (hmax.trans_lt (by decide)) body
  obtain ⟨middle, new, hrun, h2, h4⟩ := exists_migrated hold (mailboxOf_created n h body)
    (by simp [mailboxOf]) (fun recipient => by
      rw [mailboxOf_size]
      split
      · exact hmax
      · exact Nat.zero_le _) (Nat.zero_le _)
  exact ⟨new, hrun, preserves hold h2 h4⟩

/-- A mailbox whose only message is no text is read with an integrity error. -/
theorem getNewMessages_undecodable {t : Tables} {callsign : Str} {e : (Str × ℕ) × MessageRow}
    (hcallsign : (encodeUtf8 callsign).isSome) (hmailbox : t.mailbox callsign = [e])
      (he : e.1.2 = 1)
    (hhighest : t.highest callsign = 1) (hcreated : e.2.createdAt ≤ maxU32)
    (hbody : decodeUtf8 e.2.body = none) : getNewMessages callsign 0 20 t =
      .error ⟨.storageIntegrityError, "message body is not valid UTF-8"⟩ := by
  have hcontiguous : Contiguous (fun e => e.1.2) (t.mailbox callsign) (t.highest callsign) := by
    rw [Contiguous, hmailbox, hhighest]
    simp [he, List.range'_succ]
  have hstate : t.mailboxSequence callsign = .ok (t.mailboxSequences.get? callsign) := by
    rw [mailboxSequence, bindText_of_isSome hcallsign]
    rfl
  have hrow : storedMessage (e.1, { e.2 with apiSequence := 0 }) =
      .error ⟨.storageIntegrityError, "message body is not valid UTF-8"⟩ := by
    have hsequence : validateStoredU32 e.1.2 "message sequence" false = .ok 1 := by
      rw [he]
      rfl
    simp only [storedMessage, hsequence, validateStoredU32_of_le true (Nat.zero_le _) hcreated,
      Py.ok_bind, hbody]
  rw [getNewMessages, requireU32, raiseIf_of_not (by decide), Py.ok_bind, validateRetrievalLimit,
    raiseIf_of_not (by decide), Py.ok_bind, hstate, Py.ok_bind,
    mailboxHighest_contiguous hcontiguous (by rw [hhighest]; decide), Py.ok_bind, hhighest,
    raiseIf_of_not (by decide), Py.ok_bind, hmailbox]
  have hselected : ([e].filter fun e => (0 : ℤ) < (e.1.2 : ℤ)) = [e] := by simp [he]
  rw [hselected]
  show (do let _ ← [e].mapM (m := Py) _; _) = _
  rw [List.mapM_cons, hrow]
  rfl

/-- The constraints of version 1 are not enough: a body need not be text, a mailbox may hold more
messages than there are numbers, and one that uses them all has no next one. -/
theorem migrate_notPreserves :
    (∃ old : TablesV1, old.Constraints ∧ (∀ row ∈ old.messages, row.createdAt ≤ maxU32) ∧
      ∃ new, (migrate 1 []).run (.v1 old) = (.ok (), .v5 new) ∧
        ∃ e, getNewMessages (str "K1XYZ") 0 20 new = .error e ∧ e.cls = .storageIntegrityError) ∧
    (∃ old : TablesV1, old.Constraints ∧ (∀ row ∈ old.messages, row.createdAt ≤ maxU32) ∧
      ∃ e, (migrate 1 []).run (.v1 old) = (.error e, .v1 old)) ∧
    (∃ old : TablesV1, old.Constraints ∧ (∀ row ∈ old.messages, row.createdAt ≤ maxU32) ∧
      ∃ new, (migrate 1 []).run (.v1 old) = (.ok (), .v5 new) ∧
        ((storeMessage 1700000000 (str "EA1ABC") (str "K1XYZ") (str "73") 1700000000 []).run
          new).1 =
          .error ⟨.sequenceExhaustedError, "mailbox sequence is exhausted"⟩) := by
  refine ⟨?_, ?_, ?_⟩
  · refine ⟨mailboxOf 1 (by decide) [255], mailboxOf_constraints 1 _ (by decide) _,
      mailboxOf_created _ _ _, ?_⟩
    obtain ⟨new, hrun, hpreserves⟩ := exists_migrated_mailboxOf 1 (by decide) (by decide) [255]
    obtain ⟨rows, hperm, -, hnumbers, hcontents⟩ := hpreserves.mailboxes (str "K1XYZ")
    obtain rfl := List.perm_singleton.mp hperm
    obtain ⟨e, hmailbox⟩ := List.length_eq_one_iff.mp
      ((List.length_map _).symm.trans (congrArg List.length hcontents))
    simp only [hmailbox, List.map_cons, List.map_nil, List.cons.injEq, and_true, messageContent,
      MessageRowV1.content, Prod.mk.injEq] at hcontents hnumbers
    refine ⟨new, hrun, _, getNewMessages_undecodable rfl hmailbox (List.cons.inj hnumbers).1 ?_ ?_
      ?_, rfl⟩
    · rw [hpreserves.highest, mailboxOf_size, if_pos rfl]
    · have hcreated : e.2.createdAt = 1700000000 := Int.ofNat.inj hcontents.2.1
      rw [hcreated]
      decide
    · rw [hcontents.2.2.2.2]
      decide +kernel
  · refine ⟨mailboxOf (maxU32 + 1) (by decide) [], mailboxOf_constraints _ _ (by decide) _,
      mailboxOf_created _ _ _, constraintFailed "CHECK", ?_⟩
    rw [migrate_v1, migration2_error (str "K1XYZ") (by
      rw [mailboxOf_size, if_pos rfl]
      exact Nat.lt_succ_self _)]
  · have hold := mailboxOf_constraints maxU32 (by decide) (by decide) []
    obtain ⟨new, hrun, hpreserves⟩ := exists_migrated_mailboxOf maxU32 (by decide) le_rfl []
    have hsize : (mailboxOf maxU32 (by decide) []).mailboxSize (str "K1XYZ") = maxU32 := by
      rw [mailboxOf_size, if_pos rfl]
    refine ⟨_, hold, mailboxOf_created _ _ _, new, hrun, ?_⟩
    rw [storeMessage_run_of_countsFor (hpreserves.countsFor hold hsize.le) (by decide) rfl rfl rfl
      (by decide), if_pos ((hpreserves.highest _).trans hsize)]

end OpenQSP
