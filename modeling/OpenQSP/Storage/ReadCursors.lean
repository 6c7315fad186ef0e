import OpenQSP.Storage.ApiOrder
import OpenQSP.Storage.Reads

/-!
# Runs with read cursors

The databases that the stores can reach, be it from a new one or from one that was migrated, and
what moving a cursor does to them. A cursor moves to the last message of its peer, and never back.
It is never ahead of the last value of the mailbox, so a message that is stored later is ahead of
it.

## Main definitions

* `MailCall`, `Database.Reachable` — the calls of the stores, and the databases they reach
* `Database.Sound` — the invariant
* `Database.advanced` — the database with a cursor at its last message

## Main results

* `advanceConversationRead_spec`, `advanceConversationRead_ok` — one call
* `Reachable.sound`
-/

namespace OpenQSP

open Session Tables

/-! ### Reachable databases -/

/-- A call of one of the stores, or of the read cursors. -/
inductive MailCall
  | store (call : DatabaseCall)
  | advance (owner peer : Str) (faults : Faults)

/-- The database after a call. The other stores do not know the cursors. -/
def MailCall.next (d : Database) : MailCall → Database
  | store call => { d with toTables := call.next d.toTables }
  | advance owner peer faults => ((Database.advanceConversationRead owner peer faults).run d).2

/-- The columns of a message of version 1 that hold text. -/
def MessageRowV1.IsText (row : MessageRowV1) : Prop :=
  (encodeUtf8 row.recipient).isSome ∧ (encodeUtf8 row.author).isSome ∧ (decodeUtf8 row.body).isSome

/-- The databases that the stores can have before them: a new one, or one that was migrated from
version 1 or version 3, after any calls. -/
inductive Database.Reachable : Database → Prop
  | fresh : Reachable ⟨Tables.fresh, .empty⟩
  | migratedV1 {old : TablesV1} {new : Tables} (texts : ∀ row ∈ old.messages, row.IsText)
      (migrated : (migrate 1 []).run (.v1 old) = (.ok (), .v5 new)) : Reachable ⟨new, .empty⟩
  | migratedV3 (stores : List StoreV3) {new : Tables}
      (migrated : (migrate 3 []).run (.v3 (stateV3 stores)) = (.ok (), .v5 new)) :
      Reachable ⟨new, .empty⟩
  | call {d : Database} (h : Reachable d) (call : MailCall) : Reachable (call.next d)

/-- The counters are ahead of the rows, and the cursors are not ahead of the counters. -/
structure Database.Sound (d : Database) : Prop where
  counted : d.Counted
  reads_le : ∀ owner peer last, d.conversationReads.get? (owner, peer) = some last →
    last ≤ d.highest owner

/-- Migrating from version 1 leaves the counters of version 2 ahead of its rows. -/
theorem Renumbers.counted {old : TablesV1} {middle : TablesV2} (h : Renumbers old middle)
    (hsizes : ∀ recipient, old.mailboxSize recipient ≤ maxU32)
    (htexts : ∀ row ∈ old.messages, row.IsText) : middle.Counted := by
  have hhighest : ∀ r, middle.highest r = old.mailboxSize r := by
    intro r
    rw [TablesV2.highest, h.last, get?_lastValues_copy h.messages]
    split
    · next hzero => exact hzero.symm
    · rfl
  have hrow : ∀ e ∈ middle.messages.entries, ∃ row ∈ old.messages,
      (row, e.1.2) ∈ rowNumbers MessageRowV1.recipient
        (orderBy MessageRowV1.orderKey old.messages) ∧
        MessageRowV1.copy (row, e.1.2) = e := by
    intro e he
    rw [h.messages] at he
    obtain ⟨⟨row, n⟩, hnumbered, rfl⟩ := List.mem_map.mp he
    exact ⟨row, mem_of_mem_rowNumbers hnumbered, hnumbered, rfl⟩
  refine ⟨fun e he => ?_, fun r => ?_, fun e he => ?_, fun e he => ?_, fun e he => ?_⟩
  · obtain ⟨row, -, hnumbered, hcopy⟩ := hrow e he
    obtain ⟨hmin, hmax⟩ := rowNumber_mem hnumbered
    rw [countP_orderBy_messages] at hmax
    rw [hhighest, ← hcopy]
    exact ⟨hmin, hmax⟩
  · rw [hhighest]
    exact hsizes r
  · obtain ⟨row, -, hnumbered, hcopy⟩ := hrow e he
    rw [← hcopy]
    exact Int.toNat_le.mpr (h.fits _ hnumbered).2.1.2
  · obtain ⟨row, hmem, -, hcopy⟩ := hrow e he
    rw [← hcopy]
    exact Option.isSome_iff_exists.mp (htexts row hmem).2.2
  · obtain ⟨row, hmem, -, hcopy⟩ := hrow e he
    rw [← hcopy]
    exact ⟨(htexts row hmem).1, (htexts row hmem).2.1⟩

theorem counted_migratedV1 {old : TablesV1} {new : Tables} (htexts : ∀ row ∈ old.messages,
    row.IsText)
    (h : (migrate 1 []).run (.v1 old) = (.ok (), .v5 new)) : new.Counted := by
  rw [migrate_v1] at h
  rcases hmiddle : migration2 old with e | middle
  · rw [hmiddle] at h
    cases h
  rcases hlast : migration4 middle with e | last
  · simp only [hmiddle, hlast, Prod.mk.injEq, reduceCtorEq, false_and] at h
  · simp only [hmiddle, hlast, Prod.mk.injEq, Schema.v5.injEq, true_and] at h
    subst h
    refine (migration4_eq_ok hlast).counted ((migration2_eq_ok hmiddle).counted
      (fun r => ?_) htexts)
    by_contra hlarge
    rw [migration2_error _ (not_le.mp hlarge)] at hmiddle
    cases hmiddle

theorem counted_migratedV3 {stores : List StoreV3} {new : Tables}
    (h : (migrate 3 []).run (.v3 (stateV3 stores)) = (.ok (), .v5 new)) : new.Counted := by
  obtain ⟨new', hrun, h4⟩ := (counted_stateV3 stores).exists_migrated
  rw [hrun, Prod.mk.injEq, Schema.v5.injEq] at h
  rw [← h.2]
  exact h4.counted (counted_stateV3 stores)

/-! ### Moving a cursor -/

namespace Database

variable {d d' : Database} {owner peer : Str}

/-- The stored cursor, zero when there is none. -/
def cursor (d : Database) (owner peer : Str) : ℕ := (d.conversationReads.get? (owner, peer)).getD 0

/-- The last message of a peer, zero when there is none. -/
def lastSequence (d : Database) (owner peer : Str) : ℕ :=
  ((d.messages.entries.filter fun e => e.1.1 = owner && e.2.author = peer).map fun e =>
    e.1.2).max?.getD 0

theorem select_eq_ok {α : Type} {query : Database → Py α} {a : α} :
    select query d = .ok (a, d') ↔ query d = .ok a ∧ d' = d := by
  simp only [select, Py.bind_eq_ok, Py.pure_eq_ok, Except.ok.injEq, Prod.mk.injEq]
  constructor
  · rintro ⟨_, h, rfl, rfl⟩
    exact ⟨h, rfl⟩
  · rintro ⟨h, rfl⟩
    exact ⟨a, h, rfl, rfl⟩

theorem lastRead_eq (howner : (encodeUtf8 owner).isSome) (hpeer : (encodeUtf8 peer).isSome) :
    lastRead owner peer d = .ok (d.conversationReads.get? (owner, peer)) := by
  rw [lastRead, bindText_of_isSome howner, Py.ok_bind, bindText_of_isSome hpeer]
  rfl

theorem lastRead_congr
    (h : d'.conversationReads.get? (owner, peer) = d.conversationReads.get? (owner, peer)) :
    lastRead owner peer d' = lastRead owner peer d := by
  rw [lastRead, lastRead, bindText, bindText]
  split
  · split
    · exact congrArg Except.ok h
    · rfl
  · rfl

theorem lastIncoming_eq (howner : (encodeUtf8 owner).isSome) (hpeer : (encodeUtf8 peer).isSome) :
    lastIncoming owner peer d = .ok (d.lastSequence owner peer) := by
  rw [lastIncoming, bindText_of_isSome howner, Py.ok_bind, bindText_of_isSome hpeer]
  rfl

/-- The upsert keeps the greater cursor. -/
theorem upsertRead_eq (howner : (encodeUtf8 owner).isSome) (hpeer : (encodeUtf8 peer).isSome)
    {sequence : ℕ} (hmax : sequence ≤ maxU32) : upsertRead owner peer sequence d =
      .ok ((), { d with conversationReads :=
        d.conversationReads.set (owner, peer) (max (d.cursor owner peer) sequence) }) := by
  rw [upsertRead, bindText_of_isSome howner, Py.ok_bind, bindText_of_isSome hpeer, Py.ok_bind,
    bindInteger_of_le hmax, Py.ok_bind, cursor]
  cases d.conversationReads.get? (owner, peer) <;> simp

/-- The greatest sequence of a list of rows. -/
theorem le_max?_getD {l : List ℕ} {a : ℕ} (h : a ∈ l) : a ≤ l.max?.getD 0 := by
  rcases hmax : l.max? with _ | m
  · rw [List.max?_eq_none_iff] at hmax
    rw [hmax] at h
    cases h
  · exact (List.max?_eq_some_iff.mp hmax).2 a h

theorem max?_getD_mem (l : List ℕ) : l.max?.getD 0 = 0 ∨ l.max?.getD 0 ∈ l := by
  rcases hmax : l.max? with _ | m
  · exact .inl rfl
  · exact .inr (List.max?_eq_some_iff.mp hmax).1

theorem le_lastSequence {e : (Str × ℕ) × MessageRow} (he : e ∈ d.messages.entries)
    (howner : e.1.1 = owner) (hpeer : e.2.author = peer) : e.1.2 ≤ d.lastSequence owner peer := by
  refine le_max?_getD (List.mem_map_of_mem (List.mem_filter.mpr ⟨he, ?_⟩))
  simp [howner, hpeer]

theorem Sound.lastSequence_le (h : d.Sound) (owner peer : Str) :
    d.lastSequence owner peer ≤ d.highest owner ∧ d.lastSequence owner peer ≤ maxU32 := by
  rcases max?_getD_mem ((d.messages.entries.filter fun e => e.1.1 = owner && e.2.author = peer).map
    fun e => e.1.2) with hzero | hmem
  · rw [lastSequence, hzero]
    exact ⟨Nat.zero_le _, Nat.zero_le _⟩
  · obtain ⟨e, he, hsequence⟩ := List.mem_map.mp hmem
    simp only [List.mem_filter, Bool.and_eq_true, decide_eq_true_eq] at he
    obtain ⟨he, rfl, -⟩ := he
    obtain ⟨message, hmessage⟩ := h.counted.readable e he
    rw [lastSequence, ← hsequence]
    exact ⟨h.counted.sequences_le e he, (storedMessage_eq_ok hmessage).2.1⟩

/-- The database with a cursor at its last message. -/
def advanced (d : Database) (owner peer : Str) : Database :=
  { d with
    conversationReads := d.conversationReads.set (owner, peer)
      (max (d.cursor owner peer) (d.lastSequence owner peer)) }

theorem get?_advanced (q : Str × Str) : (d.advanced owner peer).conversationReads.get? q =
    if q = (owner, peer) then some (max (d.cursor owner peer) (d.lastSequence owner peer))
    else d.conversationReads.get? q := OrderedDict.get?_set _ _ _ _

theorem cursor_advanced : (d.advanced owner peer).cursor owner peer =
    max (d.cursor owner peer) (d.lastSequence owner peer) := by
  rw [cursor, get?_advanced, if_pos rfl, Option.getD_some]

/-- One call of `advanceConversationRead`: it raises and changes nothing, or it moves the cursor to
the last message and reports it. -/
theorem advanceConversationRead_spec (owner peer : Str) (h : d.Sound) (faults : Faults) :
    (∀ e, ((advanceConversationRead owner peer faults).run d).1 = .error e →
      ((advanceConversationRead owner peer faults).run d).2 = d) ∧
    ∀ result, ((advanceConversationRead owner peer faults).run d).1 = .ok result →
      result = ((d.advanced owner peer).cursor owner peer,
        decide (d.cursor owner peer < (d.advanced owner peer).cursor owner peer)) ∧
      ((advanceConversationRead owner peer faults).run d).2 = d.advanced owner peer := by
  refine run_closing_atomically (Q := fun result d' => result =
    ((d.advanced owner peer).cursor owner peer,
      decide (d.cursor owner peer < (d.advanced owner peer).cursor owner peer)) ∧
    d' = d.advanced owner peer) (Commits.step fun row d₁ hrow => ?_) faults
  obtain ⟨hrow, rfl⟩ := select_eq_ok.mp hrow
  -- The first query has bound both names.
  obtain ⟨_, howner, hrest⟩ := Py.bind_eq_ok.mp hrow
  obtain ⟨_, hpeer, -⟩ := Py.bind_eq_ok.mp hrest
  obtain ⟨-, howner⟩ := bindText_eq_ok.mp howner
  obtain ⟨-, hpeer⟩ := bindText_eq_ok.mp hpeer
  obtain rfl := Except.ok.inj ((lastRead_eq howner hpeer).symm.trans hrow)
  refine Commits.step fun sequence d₂ hsequence => ?_
  obtain ⟨hsequence, rfl⟩ := select_eq_ok.mp hsequence
  obtain rfl := Except.ok.inj ((lastIncoming_eq howner hpeer).symm.trans hsequence)
  refine Commits.step fun _ d₃ hupsert => ?_
  rw [upsertRead_eq howner hpeer (h.lastSequence_le owner peer).2, Except.ok.injEq,
    Prod.mk.injEq] at hupsert
  obtain rfl : d₃ = d₂.advanced owner peer := hupsert.2.symm
  refine Commits.step fun row d₄ hselect => ?_
  obtain ⟨hread, rfl⟩ := select_eq_ok.mp hselect
  obtain rfl := Except.ok.inj ((lastRead_eq howner hpeer).symm.trans hread)
  refine Commits.check fun persisted hpersisted => Commits.commit fun d₅ hd₅ => ⟨_, rfl, ?_, hd₅⟩
  rw [get?_advanced, if_pos rfl] at hpersisted
  obtain rfl := Except.ok.inj hpersisted
  rw [cursor_advanced]
  rfl

/-- Without failures the cursor is moved. -/
theorem advanceConversationRead_ok (h : d.Sound) (howner : (encodeUtf8 owner).isSome)
    (hpeer : (encodeUtf8 peer).isSome) :
    ∃ result, ((advanceConversationRead owner peer []).run d).1 = .ok result := by
  have hread : ∀ d : Database, select (lastRead owner peer) d =
      .ok (d.conversationReads.get? (owner, peer), d) := by
    intro d
    rw [select, lastRead_eq howner hpeer]
    rfl
  have hincoming : select (lastIncoming owner peer) d = .ok (d.lastSequence owner peer, d) := by
    rw [select, lastIncoming_eq howner hpeer]
    rfl
  have hupsert : upsertRead owner peer (d.lastSequence owner peer) d =
      .ok ((), d.advanced owner peer) :=
    upsertRead_eq howner hpeer (h.lastSequence_le owner peer).2
  have hget : (d.advanced owner peer).conversationReads.get? (owner, peer) =
      some ((d.advanced owner peer).cursor owner peer) := by
    rw [cursor_advanced, get?_advanced, if_pos rfl]
  rw [advanceConversationRead, run_closing_atomically_nil,
    Method.run_bind_of_ok (run_execute_of_ok (hread d)),
    Method.run_bind_of_ok (run_execute_of_ok hincoming),
    Method.run_bind_of_ok (run_execute_of_ok hupsert),
    Method.run_bind_of_ok (run_execute_of_ok (hread _)), hget, Method.run_ofExcept_ok_bind,
    Method.run_bind_of_ok (run_commit _ _)]
  exact ⟨_, rfl⟩

/-! ### The invariant -/

theorem Sound.cursor_le (h : d.Sound) (owner peer : Str) : d.cursor owner peer ≤
    d.highest owner := by
  rw [cursor]
  rcases hget : d.conversationReads.get? (owner, peer) with _ | value
  · exact Nat.zero_le _
  · exact h.reads_le owner peer value hget

theorem Sound.next_advanced (h : d.Sound) (owner peer : Str) : (d.advanced owner peer).Sound := by
  refine ⟨h.counted, fun owner' peer' last hlast => ?_⟩
  show last ≤ d.highest owner'
  rw [get?_advanced] at hlast
  split at hlast
  · next hq =>
    obtain ⟨rfl, rfl⟩ := Prod.mk.inj hq
    rw [← Option.some.inj hlast, max_le_iff]
    exact ⟨h.cursor_le owner' peer', (h.lastSequence_le owner' peer').1⟩
  · exact h.reads_le owner' peer' last hlast

theorem Sound.next (h : d.Sound) (call : MailCall) : (call.next d).Sound := by
  cases call with
  | store call =>
    obtain ⟨hcounted, hrows⟩ := call.next_rows h.counted
    refine ⟨hcounted, fun owner peer last hlast => (h.reads_le owner peer last hlast).trans ?_⟩
    exact call.highest_le h.counted owner
  | advance owner peer faults =>
    obtain ⟨herr, hok⟩ := advanceConversationRead_spec owner peer h faults
    rw [MailCall.next]
    rcases hrun : ((advanceConversationRead owner peer faults).run d).1 with e | result
    · rwa [herr e hrun]
    · rw [(hok result hrun).2]
      exact h.next_advanced owner peer

theorem Reachable.sound (h : d.Reachable) : d.Sound := by
  have hempty : ∀ t : Tables, t.Counted → Sound ⟨t, .empty⟩ := fun t ht =>
    ⟨ht, fun _ _ _ hlast => by cases hlast⟩
  induction h with
  | fresh => exact hempty _ counted_fresh
  | migratedV1 texts migrated => exact hempty _ (counted_migratedV1 texts migrated)
  | migratedV3 stores migrated => exact hempty _ (counted_migratedV3 migrated)
  | call h call ih => exact ih.next call

end Database

end OpenQSP
