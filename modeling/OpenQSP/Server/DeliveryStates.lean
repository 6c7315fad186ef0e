import OpenQSP.Server.Delivery
import OpenQSP.Storage.Summaries

/-!
# The states of a message over time

Every transport has a delivery row of its own for a message, and the recipient has a cursor. They
are written independently, in any order. A row that says delivered is never written again, a row
that says failed is first written as pending, and a cursor only grows, so what is reported of a
message never goes back. The first write of a row as delivered is the only one that is told to the
delivery listeners.

## Main definitions

* `notifyDelivered` — `mark_aprs_delivered` with the calls of its listeners
* `MailSystem`, `StatusCall`, `statusRun` — runs in which the states are written
* `Tables.Upserts`, `RowAdvances` — what one write does to a row
* `Database.Later` — the order in which a database grows older

## Main results

* `setDelivery_upserts` — one write
* `messageState_rank_le` — a later database reports no lower state
* `StatusCall.next_advances`, `StatusCall.next_notified` — one call
* **`deliveryState_forward`** — every run
-/

namespace OpenQSP

open Session Tables

/-! ### One write -/

namespace Tables

/-- What the upsert of a delivery row does: it writes the row if the old one lets it. -/
def Upserts (t : Tables) (key : Str × ℕ × Str) (status : DeliveryStatus) (deliveredAt : Option ℤ)
    (changed : Bool) (t' : Tables) : Prop :=
  (changed = true ∧ Advances (t.deliveries.get? key) status ∧
    t' = { t with deliveries := t.deliveries.set key ⟨status, deliveredAt.map Int.toNat⟩ }) ∨
  (changed = false ∧ t' = t)

variable {t t' : Tables} {recipient transport : Str} {sequence : ℤ} {status : DeliveryStatus}
  {deliveredAt : Option ℤ} {changed : Bool}

theorem bindOptional_eq_ok {value bound : Option ℤ} (h : bindOptional value = .ok bound) :
    bound = value := by
  cases value with
  | none => exact (Except.ok.inj h).symm
  | some value =>
    rw [bindOptional] at h
    rcases hvalue : bindInteger value with e | v
    · rw [hvalue] at h
      cases h
    · rw [hvalue] at h
      rw [← Except.ok.inj h, bindInteger_eq_ok hvalue]

theorem upsertDelivery_upserts
    (h : upsertDelivery recipient sequence transport status deliveredAt t = .ok (changed, t')) :
    t.Upserts (recipient, sequence.toNat, transport) status deliveredAt changed t' := by
  simp only [upsertDelivery, Py.bind_eq_ok] at h
  obtain ⟨boundRecipient, hrecipient, boundSequence, hsequence, boundTransport, htransport,
    boundDeliveredAt, hdeliveredAt, _, -, _, -, h⟩ := h
  rw [(bindText_eq_ok.mp hrecipient).1, bindInteger_eq_ok hsequence,
    (bindText_eq_ok.mp htransport).1,
    bindOptional_eq_ok hdeliveredAt] at h
  split at h
  · next hadvances =>
    obtain ⟨rfl, rfl⟩ := Prod.mk.inj (Except.ok.inj h)
    exact .inl ⟨rfl, hadvances, rfl⟩
  · obtain ⟨rfl, rfl⟩ := Prod.mk.inj (Except.ok.inj h)
    exact .inr ⟨rfl, rfl⟩

end Tables

/-- One call of `setDelivery`: it raises and changes nothing, or it is the upsert. -/
theorem setDelivery_upserts (t : Tables) (recipient : Str) (sequence : ℤ) (transport : Str)
    (status : DeliveryStatus) (deliveredAt : Option ℤ) (faults : Faults) :
    (∀ e, ((setDelivery recipient sequence transport status deliveredAt faults).run t).1 =
      .error e →
      ((setDelivery recipient sequence transport status deliveredAt faults).run t).2 = t) ∧
    ∀ changed,
      ((setDelivery recipient sequence transport status deliveredAt faults).run t).1 = .ok changed →
      t.Upserts (recipient, sequence.toNat, transport) status deliveredAt changed
        ((setDelivery recipient sequence transport status deliveredAt faults).run t).2 := by
  refine run_closing_atomically (Q := fun changed t' =>
    t.Upserts (recipient, sequence.toNat, transport) status deliveredAt changed t')
    (Commits.step fun changed t₁ h => ?_) faults
  refine Commits.commit fun d hd => ⟨_, rfl, ?_⟩
  rw [hd]
  exact upsertDelivery_upserts h

/-- What a call may do to a delivery row: leave it, or write it if it lets it. -/
def RowAdvances (old new : Option DeliveryRow) : Prop :=
  new = old ∨ ∃ row, new = some row ∧ Advances old row.status

/-- A row that says delivered is never written again. -/
theorem RowAdvances.delivered {old new : Option DeliveryRow} (h : RowAdvances old new)
    {row : DeliveryRow}
    (hold : old = some row) (hdelivered : row.status = .delivered) : new = some row := by
  rcases h with rfl | ⟨row', -, hadvances⟩
  · exact hold
  · exact absurd ⟨row, hold, .inl hdelivered⟩ hadvances

/-- A row that says failed does not say delivered next. -/
theorem RowAdvances.failed {old new : Option DeliveryRow} (h : RowAdvances old new)
    {row row' : DeliveryRow}
    (hold : old = some row) (hfailed : row.status = .failed) (hnew : new = some row') :
    row'.status ≠ .delivered := by
  rcases h with rfl | ⟨row'', hnew', hadvances⟩
  · rw [hold, Option.some.injEq] at hnew
    rw [← hnew, hfailed]
    nofun
  · rw [hnew, Option.some.injEq] at hnew'
    rw [hnew']
    exact fun hdelivered => hadvances ⟨row, hold, .inr ⟨hfailed, hdelivered⟩⟩

theorem RowAdvances.refl (row : Option DeliveryRow) : RowAdvances row row := .inl rfl

theorem Tables.Upserts.rowAdvances {t t' : Tables} {key : Str × ℕ × Str} {status : DeliveryStatus}
    {deliveredAt : Option ℤ} {changed : Bool} (h : t.Upserts key status deliveredAt changed t')
    (key' : Str × ℕ × Str) : RowAdvances (t.deliveries.get? key') (t'.deliveries.get? key') := by
  rcases h with ⟨-, hadvances, rfl⟩ | ⟨-, rfl⟩
  · rw [OrderedDict.get?_set]
    split
    · next hkey => exact .inr ⟨_, rfl, hkey ▸ hadvances⟩
    · exact .refl _
  · exact .refl _

/-- A delivery write, whatever its outcome. -/
theorem setDelivery_rowAdvances (t : Tables) (recipient : Str) (sequence : ℤ) (transport : Str)
    (status : DeliveryStatus) (deliveredAt : Option ℤ) (faults : Faults) (key : Str × ℕ × Str) :
    RowAdvances (t.deliveries.get? key)
      (((setDelivery recipient sequence transport status deliveredAt faults).run
        t).2.deliveries.get? key) := by
  obtain ⟨herr, hok⟩ := setDelivery_upserts t recipient sequence transport status deliveredAt faults
  rcases hrun : ((setDelivery recipient sequence transport status deliveredAt faults).run t).1 with
    e | changed
  · rw [herr e hrun]
    exact .refl _
  · exact (hok changed hrun).rowAdvances key

/-! ### What is reported of a message -/

/-- The order of the states. -/
def MessageState.rank : MessageState → ℕ
  | .stored => 0
  | .delivered => 1
  | .read => 2

/-- A delivery that was recorded stays as it was, and a cursor only grows. -/
structure Database.Later (d d' : Database) : Prop where
  delivered : ∀ key row, d.deliveries.get? key = some row → row.status = .delivered →
    d'.deliveries.get? key = some row
  cursors : ∀ q last, d.conversationReads.get? q = some last →
    ∃ last' ∈ d'.conversationReads.get? q, last ≤ last'

theorem Database.Later.refl (d : Database) : d.Later d :=
  ⟨fun _ _ h _ => h, fun _ last h => ⟨last, h, le_rfl⟩⟩

theorem Database.Later.trans {d d' d'' : Database} (h : d.Later d') (h' : d'.Later d'') :
    d.Later d'' where
  delivered key row hrow hdelivered := h'.delivered key row (h.delivered key row hrow hdelivered)
    hdelivered
  cursors q last hlast := by
    obtain ⟨last', hlast', hle⟩ := h.cursors q last hlast
    obtain ⟨last'', hlast'', hle'⟩ := h'.cursors q last' hlast'
    exact ⟨last'', hlast'', hle.trans hle'⟩

section Reported

variable {d d' : Database} {value : StoredMessage}

/-- A message is reported as delivered when one of its rows says so, with a time. -/
theorem lastDelivered_isSome_iff {recipient : Str} {sequence : ℤ} {deliveredAt : Option ℕ}
    (h : d.lastDelivered recipient sequence = .ok deliveredAt) : deliveredAt.isSome ↔
      ∃ e ∈ d.deliveries.entries, e.1.1 = recipient ∧ (e.1.2.1 : ℤ) = sequence ∧
        e.2.status = .delivered ∧ e.2.deliveredAt.isSome := by
  simp only [Database.lastDelivered, Py.bind_eq_ok] at h
  obtain ⟨boundRecipient, hrecipient, boundSequence, hsequence, h⟩ := h
  rw [(bindText_eq_ok.mp hrecipient).1, bindInteger_eq_ok hsequence] at h
  obtain rfl := Except.ok.inj h
  rw [← Option.ne_none_iff_isSome, Ne, List.max?_eq_none_iff]
  constructor
  · intro hne
    obtain ⟨time, htime⟩ := List.exists_mem_of_ne_nil _ hne
    simp only [List.mem_filterMap, List.mem_filter, Bool.and_eq_true, decide_eq_true_eq] at htime
    obtain ⟨e, ⟨he, ⟨hrecipient, hsequence⟩, hdelivered⟩, htime⟩ := htime
    exact ⟨e, he, hrecipient, hsequence, hdelivered, Option.isSome_of_mem htime⟩
  · rintro ⟨e, he, hrecipient, hsequence, hdelivered, htime⟩
    obtain ⟨time, htime⟩ := Option.isSome_iff_exists.mp htime
    refine List.ne_nil_of_mem (a := time) (List.mem_filterMap.mpr ⟨e, ?_, htime⟩)
    simp [List.mem_filter, he, hrecipient, hsequence, hdelivered]

theorem lastDelivered_isSome (h : d.Later d') {recipient : Str} {sequence : ℤ}
    {deliveredAt deliveredAt' : Option ℕ} (hdelivered : d.lastDelivered recipient sequence =
      .ok deliveredAt)
    (hdelivered' : d'.lastDelivered recipient sequence = .ok deliveredAt')
      (hsome : deliveredAt.isSome) :
    deliveredAt'.isSome := by
  obtain ⟨e, he, hrecipient, hsequence, hstatus, htime⟩ :=
    (lastDelivered_isSome_iff hdelivered).mp hsome
  refine (lastDelivered_isSome_iff hdelivered').mpr ⟨e, ?_, hrecipient, hsequence, hstatus, htime⟩
  exact OrderedDict.get?_eq_some_iff.mp
    (h.delivered e.1 e.2 (OrderedDict.get?_eq_some_iff.mpr he) hstatus)

/-- A later database reports no lower state. -/
theorem messageState_rank_le (h : d.Later d') (hrecipient : (encodeUtf8 value.recipient).isSome)
    (hauthor : (encodeUtf8 value.author).isSome) (hmax : value.sequence ≤ maxU32)
    {state state' : MessageState × Option ℕ} (hstate : d.messageState value = .ok state)
    (hstate' : d'.messageState value = .ok state') : state.1.rank ≤ state'.1.rank := by
  obtain ⟨deliveredAt, hdelivered, heq⟩ := Database.messageState_eq (d := d) hrecipient hauthor hmax
  obtain ⟨deliveredAt', hdelivered', heq'⟩ :=
    Database.messageState_eq (d := d') hrecipient hauthor hmax
  obtain rfl := Except.ok.inj (heq.symm.trans hstate)
  obtain rfl := Except.ok.inj (heq'.symm.trans hstate')
  by_cases hread : ∃ last ∈ d.conversationReads.get? (value.recipient, value.author),
    value.sequence ≤ last
  · obtain ⟨last, hlast, hle⟩ := hread
    obtain ⟨last', hlast', hle'⟩ := h.cursors _ last hlast
    rw [if_pos ⟨last, hlast, hle⟩, if_pos ⟨last', hlast', hle.trans hle'⟩]
  rw [if_neg hread]
  have hsome := lastDelivered_isSome h hdelivered hdelivered'
  by_cases hread' : ∃ last ∈ d'.conversationReads.get? (value.recipient, value.author),
    value.sequence ≤ last
  · rw [if_pos hread']
    cases deliveredAt with
    | none => exact Nat.zero_le _
    | some time => exact Nat.le_succ _
  · rw [if_neg hread']
    cases deliveredAt with
    | none => exact Nat.zero_le _
    | some time =>
      obtain ⟨time', rfl⟩ := Option.isSome_iff_exists.mp (hsome rfl)
      exact le_rfl

end Reported

/-! ### The marks of the APRS transport -/

namespace CoreState

variable {stores : Stores}

/-- `ServerCore.mark_aprs_delivered`, with what each delivery listener is called with. -/
def notifyDelivered (stores : Stores) (delivery : Str × ℤ) :
    Method PyError CoreState (Option (StoredMessage × ℤ)) := do
  let core ← get
  let changed ← setAprsDelivery stores delivery.1 delivery.2 .delivered (some core.clock)
  if changed then
    let core' ← get
    let value ← Method.ofExcept (getMessage delivery.1 delivery.2 core'.tables)
    return value.map fun value => (value, core.clock)
  else return none

/-- To the core it is the same method. -/
theorem markAprsDelivered_eq (delivery : Str × ℤ) (core : CoreState) :
    ((markAprsDelivered stores delivery).run core).2 =
      ((notifyDelivered stores delivery).run core).2 := by
  rw [markAprsDelivered, notifyDelivered, Method.run_get_bind, Method.run_get_bind, Method.run_bind,
    Method.run_bind]
  rcases (setAprsDelivery stores delivery.1 delivery.2 .delivered (some core.clock)).run core with
    ⟨e | changed, core'⟩
  · rfl
  · cases changed with
    | false => rfl
    | true =>
      dsimp only
      rw [Method.when, if_pos rfl, if_pos rfl, Method.run_get_bind, Method.run_get_bind,
        Method.run_bind,
        Method.run_bind, Method.run_ofExcept]
      rcases getMessage delivery.1 delivery.2 core'.tables with e | value <;> rfl

theorem setAprsDelivery_upserts (stores : Stores) (recipient : Str) (sequence : ℤ)
    (status : DeliveryStatus)
    (deliveredAt : Option ℤ) (core : CoreState) :
    (∀ e, ((setAprsDelivery stores recipient sequence status deliveredAt).run core).1 = .error e →
      ((setAprsDelivery stores recipient sequence status deliveredAt).run core).2 = core) ∧
    ∀ changed, ((setAprsDelivery stores recipient sequence status deliveredAt).run core).1 =
      .ok changed →
      ∃ t, core.tables.Upserts (recipient, sequence.toNat, str "aprs") status deliveredAt
        changed t ∧
        ((setAprsDelivery stores recipient sequence status deliveredAt).run core).2 =
          { core with tables := t } := by
  rw [setAprsDelivery]
  split
  · obtain ⟨herr, hok⟩ := setDelivery_upserts core.tables recipient sequence (str "aprs") status
      deliveredAt []
    refine ⟨fun e he => ?_, fun changed hchanged => ⟨_, hok changed hchanged, rfl⟩⟩
    simp only [onTables] at he ⊢
    rw [herr e he]
  · refine ⟨fun e he => ?_, fun changed hchanged => ?_⟩
    · cases he
    obtain rfl := Except.ok.inj hchanged
    exact ⟨core.tables, .inr ⟨rfl, rfl⟩, rfl⟩

/-- A mark writes one row, if the old one lets it. -/
theorem setAprsDelivery_next (stores : Stores) (recipient : Str) (sequence : ℤ)
    (status : DeliveryStatus)
    (deliveredAt : Option ℤ) (core : CoreState) : ∃ changed t,
      core.tables.Upserts (recipient, sequence.toNat, str "aprs") status deliveredAt changed t ∧
      ((setAprsDelivery stores recipient sequence status deliveredAt).run core).2 =
        { core with tables := t } := by
  obtain ⟨herr, hok⟩ := setAprsDelivery_upserts stores recipient sequence status deliveredAt core
  rcases hrun : ((setAprsDelivery stores recipient sequence status deliveredAt).run core).1 with
    e | changed
  · exact ⟨false, core.tables, .inr ⟨rfl, rfl⟩, herr e hrun⟩
  · exact ⟨changed, hok changed hrun⟩

theorem run_discard_snd {α : Type} (m : Method PyError CoreState α) (core : CoreState) :
    ((m >>= fun _ => pure ()).run core).2 = (m.run core).2 := by
  rw [Method.run_bind]
  rcases m.run core with ⟨e | a, core'⟩ <;> rfl

theorem getMessage_eq_ok {recipient : Str} {sequence : ℤ} {t : Tables} {value : StoredMessage}
    (h : getMessage recipient sequence t = .ok (some value)) :
    value.recipient = recipient ∧ (value.sequence : ℤ) = sequence := by
  obtain ⟨row, hrow, h⟩ := Py.bind_eq_ok.mp h
  obtain rfl := messageAt_eq_ok hrow
  split at h
  · cases h
  · next e hfind =>
    obtain ⟨message, hmessage, h⟩ := Py.bind_eq_ok.mp h
    obtain rfl := Option.some.inj (Except.ok.inj h)
    have hcond := List.find?_some hfind
    simp only [Bool.and_eq_true, decide_eq_true_eq] at hcond
    obtain ⟨-, -, hsequence, hrecipient, -⟩ := storedMessage_eq_ok hmessage
    exact ⟨hrecipient.trans hcond.1, by rw [hsequence, hcond.2]⟩

/-- The listeners are told of a message when its row is written. -/
theorem notifyDelivered_spec (stores : Stores) (delivery : Str × ℤ) (core : CoreState) :
    ∃ changed t,
    core.tables.Upserts (deliveryKey delivery) .delivered (some core.clock) changed t ∧
    ((notifyDelivered stores delivery).run core).2 = { core with tables := t } ∧
    ∀ call, ((notifyDelivered stores delivery).run core).1 = .ok (some call) →
      changed = true ∧ call.1.recipient = delivery.1 ∧ (call.1.sequence : ℤ) = delivery.2 := by
  obtain ⟨herr, hok⟩ := setAprsDelivery_upserts stores delivery.1 delivery.2 .delivered
    (some core.clock) core
  rw [notifyDelivered, Method.run_get_bind, Method.run_bind]
  rcases hrun : (setAprsDelivery stores delivery.1 delivery.2 .delivered (some core.clock)).run
    core with
    ⟨e | changed, core'⟩
  · rw [hrun] at herr
    exact ⟨false, core.tables, .inr ⟨rfl, rfl⟩, herr e rfl, nofun⟩
  · rw [hrun] at hok
    obtain ⟨t, hupserts, hcore'⟩ := hok changed rfl
    refine ⟨changed, t, hupserts, ?_⟩
    cases changed with
    | false => exact ⟨hcore', nofun⟩
    | true =>
      dsimp only
      rw [if_pos rfl, Method.run_get_bind, Method.run_bind, Method.run_ofExcept]
      rcases hvalue : getMessage delivery.1 delivery.2 core'.tables with e | value
      · exact ⟨hcore', nofun⟩
      · refine ⟨hcore', fun call hcall => ⟨rfl, ?_⟩⟩
        obtain ⟨value, rfl, rfl⟩ := Option.map_eq_some_iff.mp (Except.ok.inj hcall)
        exact getMessage_eq_ok hvalue

end CoreState

/-! ### Runs -/

/-- The core, the read cursors, and what each delivery listener was called with. -/
structure MailSystem where
  core : CoreState
  conversationReads : OrderedDict (Str × Str) ℕ
  notified : List (StoredMessage × ℤ)

namespace MailSystem

def database (s : MailSystem) : Database := ⟨s.core.tables, s.conversationReads⟩

/-- The system with another database. -/
def withDatabase (s : MailSystem) (d : Database) : MailSystem :=
  { s with core := { s.core with tables := d.toTables }, conversationReads := d.conversationReads }

end MailSystem

/-- A call that may write the state of a message: of a store or a cursor, of the APRS transport, or
of the Internet transport. The wall clock shows anything. -/
inductive StatusCall
  | mail (call : MailCall)
  | clock (value : ℤ)
  | pending (delivery : Str × ℤ)
  | delivered (delivery : Str × ℤ)
  | failed (delivery : Str × ℤ)
  | internet (recipient : Str) (sequence deliveredAt : ℤ)

/-- The system after a call. -/
def StatusCall.next (stores : Stores) (s : MailSystem) : StatusCall → MailSystem
  | mail call => s.withDatabase (call.next s.database)
  | clock value => { s with core := { s.core with clock := value } }
  | pending delivery => { s with core := ((CoreState.markAprsPending stores delivery).run
      s.core).2 }
  | delivered delivery =>
    let (outcome, core) := (CoreState.notifyDelivered stores delivery).run s.core
    { s with
      core
      notified := s.notified ++ match outcome with
        | .ok (some call) => [call]
        | _ => [] }
  | failed delivery => { s with core := ((CoreState.markAprsFailed stores delivery).run s.core).2 }
  | internet recipient sequence deliveredAt => s.withDatabase
      ((MailCall.store (.delivery recipient sequence (str "internet") .delivered (some deliveredAt)
        [])).next s.database)

/-- The system after the first `i` calls. -/
def statusRun (stores : Stores) (s : MailSystem) (calls : List StatusCall) (i : ℕ) : MailSystem :=
  stateAt (StatusCall.next stores) s calls i

/-! ### One call -/

section Step

variable {stores : Stores} {s : MailSystem}

/-- What a call does to the database: every row advances, and no cursor is lowered. -/
structure Database.Advances (d d' : Database) : Prop where
  rows : ∀ key, RowAdvances (d.deliveries.get? key) (d'.deliveries.get? key)
  cursors : ∀ q last, d.conversationReads.get? q = some last →
    ∃ last' ∈ d'.conversationReads.get? q, last ≤ last'

theorem Database.Advances.later {d d' : Database} (h : d.Advances d') : d.Later d' :=
  ⟨fun key _ hrow hdelivered => (h.rows key).delivered hrow hdelivered, h.cursors⟩

theorem Database.Advances.of_rows {d d' : Database}
    (hrows : ∀ key, RowAdvances (d.deliveries.get? key) (d'.deliveries.get? key))
    (hreads : d'.conversationReads = d.conversationReads) : d.Advances d' := by
  refine ⟨hrows, fun q last hlast => ⟨last, ?_, le_rfl⟩⟩
  rw [hreads]
  exact hlast

/-- Storing a message or a bulletin does not touch the delivery rows. -/
theorem DatabaseCall.next_rowAdvances {t : Tables} (h : t.Counted) (call : DatabaseCall)
    (key : Str × ℕ × Str) : RowAdvances (t.deliveries.get? key)
      ((call.next t).deliveries.get? key) := by
  cases call with
  | message call =>
    refine .inl ?_
    show (call.next t).deliveries.get? key = _
    rcases call.next_cases h.toReplayable with hnext | ⟨_, _, _, _, _, _, _, houtcome⟩
    · rw [hnext]
    · rcases houtcome.accepted with ⟨-, hnext⟩ | ⟨-, t₁, apiIdempotency, haccepts, hnext, -⟩
      · rw [hnext]
      · obtain ⟨data, -, rfl⟩ := haccepts.tables_eq
        rw [hnext]
        rfl
  | bulletin createdAt author title body clock faults =>
    obtain ⟨herr, hok⟩ := storeBulletin_spec t createdAt author title body clock faults
    obtain ⟨hnext, -⟩ := run_discard (storeBulletin createdAt author title body clock faults) t
    rw [next, run, hnext]
    rcases hrun : ((storeBulletin createdAt author title body clock faults).run t).1 with
      e | sequence
    · rw [herr e hrun]
      exact .refl _
    · obtain ⟨bulletin, hpublishes, -⟩ := hok sequence hrun
      obtain ⟨-, -, -, htables⟩ := hpublishes.entries
      rw [htables]
      exact .refl _
  | delivery recipient sequence transport status deliveredAt faults =>
    obtain ⟨hnext, -⟩ :=
      run_discard (setDelivery recipient sequence transport status deliveredAt faults) t
    rw [next, run, hnext]
    exact setDelivery_rowAdvances t recipient sequence transport status deliveredAt faults key

theorem MailCall.next_advances {d : Database} (h : d.Sound) (call : MailCall) :
    d.Advances (call.next d) := by
  cases call with
  | store call => exact .of_rows (fun key => call.next_rowAdvances h.counted key) rfl
  | advance owner peer faults =>
    obtain ⟨herr, hok⟩ := Database.advanceConversationRead_spec owner peer h faults
    rw [MailCall.next]
    rcases hrun : ((Database.advanceConversationRead owner peer faults).run d).1 with e | result
    · rw [herr e hrun]
      exact .of_rows (fun _ => .refl _) rfl
    · rw [(hok result hrun).2]
      refine ⟨fun _ => .refl _, fun q last hlast => ?_⟩
      rw [Database.get?_advanced]
      split
      · next hq =>
        refine ⟨_, rfl, le_max_of_le_left ?_⟩
        rw [Database.cursor, ← hq, hlast]
        exact le_rfl
      · exact ⟨last, hlast, le_rfl⟩

/-- A delivery write keeps the invariant. -/
theorem Database.Sound.upserts {d : Database} (h : d.Sound) {key : Str × ℕ × Str}
    {status : DeliveryStatus}
    {deliveredAt : Option ℤ} {changed : Bool} {t : Tables}
    (hupserts : d.Upserts key status deliveredAt changed t) : Sound { d with toTables := t } := by
  rcases hupserts with ⟨-, -, rfl⟩ | ⟨-, rfl⟩
  · exact ⟨h.counted.congr rfl rfl rfl rfl, h.reads_le⟩
  · exact h

/-- The core after a call, when the call is a mark. -/
theorem StatusCall.next_core (stores : Stores) (s : MailSystem) (call : StatusCall) :
    (∃ mail, (call.next stores s).database = MailCall.next s.database mail ∧
      (call.next stores s).notified = s.notified) ∨
    ∃ key status deliveredAt changed t, s.core.tables.Upserts key status deliveredAt changed t ∧
      (call.next stores s).database = ⟨t, s.conversationReads⟩ ∧
      ∃ later, (call.next stores s).notified = s.notified ++ later ∧
        (later = [] ∨ ∃ told, later = [told] ∧ changed = true ∧ status = .delivered ∧
          key = (told.1.recipient, told.1.sequence, str "aprs")) := by
  cases call with
  | mail call => exact .inl ⟨call, rfl, rfl⟩
  | clock value =>
    exact .inr ⟨(str "", 0, str ""), .pending, none, false, s.core.tables, .inr ⟨rfl, rfl⟩, rfl, [],
      (List.append_nil _).symm, .inl rfl⟩
  | pending delivery =>
    obtain ⟨changed, t, hupserts, hcore⟩ := CoreState.setAprsDelivery_next stores delivery.1
      delivery.2 .pending none s.core
    refine .inr ⟨_, _, _, changed, t, hupserts, ?_, [], (List.append_nil _).symm, .inl rfl⟩
    rw [next, MailSystem.database, CoreState.markAprsPending, CoreState.run_discard_snd, hcore]
  | failed delivery =>
    obtain ⟨changed, t, hupserts, hcore⟩ := CoreState.setAprsDelivery_next stores delivery.1
      delivery.2 .failed none s.core
    refine .inr ⟨_, _, _, changed, t, hupserts, ?_, [], (List.append_nil _).symm, .inl rfl⟩
    rw [next, MailSystem.database, CoreState.markAprsFailed, CoreState.run_discard_snd, hcore]
  | delivered delivery =>
    obtain ⟨changed, t, hupserts, hcore, htold⟩ := CoreState.notifyDelivered_spec stores
      delivery s.core
    refine .inr ⟨_, _, _, changed, t, hupserts, ?_, ?_⟩
    · rw [next, MailSystem.database]
      exact congrArg (fun core => (⟨CoreState.tables core, s.conversationReads⟩ : Database)) hcore
    · rcases hrun : (CoreState.notifyDelivered stores delivery).run s.core with ⟨e | told, core⟩
      · refine ⟨[], ?_, .inl rfl⟩
        rw [next, hrun]
      · rw [hrun] at htold
        cases told with
        | none =>
          refine ⟨[], ?_, .inl rfl⟩
          rw [next, hrun]
        | some told =>
          obtain ⟨hchanged, hrecipient, hsequence⟩ := htold told rfl
          refine ⟨[told], ?_, .inr ⟨told, rfl, hchanged, rfl, ?_⟩⟩
          · rw [next, hrun]
          · rw [deliveryKey, hrecipient, ← hsequence, Int.toNat_natCast]
  | internet recipient sequence deliveredAt =>
    exact .inl ⟨.store (.delivery recipient sequence (str "internet") .delivered
      (some deliveredAt) []),
      rfl, rfl⟩

/-- Every call keeps the invariant, and lets the database grow older. -/
theorem StatusCall.next_advances (stores : Stores) (h : s.database.Sound) (call : StatusCall) :
    (call.next stores s).database.Sound ∧ s.database.Advances (call.next stores s).database := by
  rcases call.next_core stores s with ⟨mail, hnext, -⟩ | ⟨key, status, deliveredAt, changed, t,
    hupserts, hnext, -⟩
  · rw [hnext]
    exact ⟨h.next mail, mail.next_advances h⟩
  · rw [hnext]
    exact ⟨h.upserts hupserts, .of_rows (fun key' => hupserts.rowAdvances key') rfl⟩

/-- The listeners were told of a message at most once, and then its APRS row says delivered. -/
def ToldOnce (recipient : Str) (sequence : ℕ) (s : MailSystem) : Prop :=
  (s.notified.filter fun told => told.1.recipient = recipient && told.1.sequence =
    sequence).length ≤ 1 ∧
    ∀ told ∈ s.notified, told.1.recipient = recipient → told.1.sequence = sequence →
      ∃ row, s.database.deliveries.get? (recipient, sequence, str "aprs") = some row ∧
        row.status = .delivered

theorem StatusCall.next_notified (h : s.database.Sound) {recipient : Str} {sequence : ℕ}
    (htold : ToldOnce recipient sequence s) (call : StatusCall) :
    ToldOnce recipient sequence (call.next stores s) := by
  have hadvances := (call.next_advances stores h).2
  have hkept : ∀ told ∈ s.notified, told.1.recipient = recipient → told.1.sequence = sequence →
      ∃ row, (call.next stores s).database.deliveries.get? (recipient, sequence, str "aprs") =
        some row ∧
        row.status = .delivered := by
    intro told hmem hrecipient hsequence
    obtain ⟨row, hrow, hdelivered⟩ := htold.2 told hmem hrecipient hsequence
    exact ⟨row, hadvances.later.delivered _ row hrow hdelivered, hdelivered⟩
  rcases call.next_core stores s with ⟨mail, -, hnotified⟩ |
    ⟨key, status, deliveredAt, changed, t, hupserts, hnext, later, hnotified, hlater⟩
  · rw [ToldOnce, hnotified]
    exact ⟨htold.1, hkept⟩
  rw [ToldOnce, hnotified]
  rcases hlater with rfl | ⟨told, rfl, rfl, rfl, rfl⟩
  · rw [List.append_nil]
    exact ⟨htold.1, hkept⟩
  by_cases hthis : told.1.recipient = recipient ∧ told.1.sequence = sequence
  · obtain ⟨rfl, rfl⟩ := hthis
    rcases hupserts with ⟨-, hold, rfl⟩ | ⟨hfalse, -⟩
    · -- The old row did not say delivered, so the listeners had not been told.
      have hnone : ∀ told' ∈ s.notified, ¬((decide (told'.1.recipient = told.1.recipient) &&
          decide (told'.1.sequence = told.1.sequence)) = true) := by
        intro told' hmem hsame
        simp only [Bool.and_eq_true, decide_eq_true_eq] at hsame
        obtain ⟨row, hrow, hdelivered⟩ := htold.2 told' hmem hsame.1 hsame.2
        exact hold ⟨row, hrow, .inl hdelivered⟩
      refine ⟨?_, fun _ _ _ _ => ⟨⟨.delivered, deliveredAt.map Int.toNat⟩, ?_, rfl⟩⟩
      · rw [List.filter_append, List.filter_eq_nil_iff.mpr hnone]
        simp
      · rw [hnext]
        exact OrderedDict.get?_set_self _ _ _
    · cases hfalse
  · refine ⟨?_, fun told' hmem hrecipient hsequence => ?_⟩
    · have hother : (decide (told.1.recipient = recipient) && decide (told.1.sequence = sequence)) =
        false := by
        simpa using hthis
      rw [List.filter_append, List.filter_cons, if_neg (by rw [hother]; exact Bool.false_ne_true),
        List.filter_nil, List.append_nil]
      exact htold.1
    · rcases List.mem_append.mp hmem with hmem | hmem
      · exact hkept told' hmem hrecipient hsequence
      · rw [List.mem_singleton] at hmem
        exact absurd ⟨hmem ▸ hrecipient, hmem ▸ hsequence⟩ hthis

end Step

/-! ### Runs -/

section Run

variable {stores : Stores} {s : MailSystem} {calls : List StatusCall}

theorem statusRun_sound (h : s.database.Sound) : ∀ i ≤ calls.length,
    (statusRun stores s calls i).database.Sound :=
  stateAt_invariant (I := fun s : MailSystem => s.database.Sound) h fun _ _ hi =>
    (StatusCall.next_advances _ hi _).1

theorem statusRun_later (h : s.database.Sound) {i j : ℕ} (hij : i ≤ j) (hj : j ≤ calls.length) :
    (statusRun stores s calls i).database.Later (statusRun stores s calls j).database :=
  stateAt_rel (R := fun s s' : MailSystem => s.database.Later s'.database) (fun s =>
    .refl s.database)
    (fun _ _ _ => .trans) (fun k hk _ => (StatusCall.next_advances _ (statusRun_sound h k hk.le)
      _).2.later)
    hij hj

/-- A row that says failed says failed until it says pending. -/
theorem failed_until_pending (h : s.database.Sound) (key : Str × ℕ × Str) {i j : ℕ} (hij : i ≤ j)
    (hj : j ≤ calls.length) {row : DeliveryRow}
    (hrow : (statusRun stores s calls i).database.deliveries.get? key = some row)
    (hfailed : row.status = .failed) :
    (∃ row', (statusRun stores s calls j).database.deliveries.get? key = some row' ∧
      row'.status = .failed) ∨
    ∃ k, i < k ∧ k ≤ j ∧ ∃ row',
      (statusRun stores s calls k).database.deliveries.get? key = some row' ∧
        row'.status = .pending := by
  induction j, hij using Nat.le_induction with
  | base => exact .inl ⟨row, hrow, hfailed⟩
  | succ j hij ih =>
    rcases ih (Nat.le_of_succ_le hj) with ⟨row', hrow', hfailed'⟩ | ⟨k, hik, hkj, hpending⟩
    · have hsound : (statusRun stores s calls j).database.Sound :=
        statusRun_sound h j (Nat.le_of_succ_le hj)
      have hstep := ((calls[j].next_advances stores hsound).2.rows key)
      have hsucc : statusRun stores s calls (j + 1) =
          StatusCall.next stores (statusRun stores s calls j) calls[j] := stateAt_succ hj
      rw [← hsucc] at hstep
      rcases hnew : (statusRun stores s calls (j + 1)).database.deliveries.get? key with _ | row''
      · rcases hstep with heq | ⟨row'', heq, -⟩
        · rw [hnew, hrow'] at heq
          cases heq
        · rw [hnew] at heq
          cases heq
      · have hne := hstep.failed hrow' hfailed' hnew
        rcases hstatus : row''.status with _ | _ | _
        · exact .inr ⟨j + 1, Nat.lt_succ_of_le hij, le_rfl, row'', hnew, hstatus⟩
        · exact absurd hstatus hne
        · exact .inl ⟨row'', rfl, hstatus⟩
    · exact .inr ⟨k, hik, Nat.le_succ_of_le hkj, hpending⟩

end Run

/-- **The state of a message never goes back.** From any reachable database and for any stored
message, in every run: the reported state only moves forward, a row that says delivered is never
written again, a failed delivery is pending before it is delivered, and the delivery listeners are
told at most once. -/
theorem deliveryState_forward {stores : Stores} {s : MailSystem} (h : s.database.Reachable)
    (hnotified : s.notified = []) {e : (Str × ℕ) × MessageRow}
    (he : e ∈ s.core.tables.messages.entries) {value : StoredMessage}
      (hvalue : storedMessage e = .ok value)
    (calls : List StatusCall) :
    (∀ i j, i ≤ j → j ≤ calls.length → ∃ state state',
      (statusRun stores s calls i).database.messageState value = .ok state ∧
      (statusRun stores s calls j).database.messageState value = .ok state' ∧
      state.1.rank ≤ state'.1.rank) ∧
    (∀ transport row i j, i ≤ j → j ≤ calls.length →
      (statusRun stores s calls i).database.deliveries.get? (value.recipient, value.sequence,
        transport) =
        some row → row.status = .delivered →
      (statusRun stores s calls j).database.deliveries.get? (value.recipient, value.sequence,
        transport) =
        some row) ∧
    (∀ transport row row' i j, i ≤ j → j ≤ calls.length →
      (statusRun stores s calls i).database.deliveries.get? (value.recipient, value.sequence,
        transport) =
        some row → row.status = .failed →
      (statusRun stores s calls j).database.deliveries.get? (value.recipient, value.sequence,
        transport) =
        some row' → row'.status = .delivered →
      ∃ k, i < k ∧ k < j ∧ ∃ row'',
        (statusRun stores s calls k).database.deliveries.get?
          (value.recipient, value.sequence, transport) = some row'' ∧ row''.status = .pending) ∧
    ∀ i ≤ calls.length, ((statusRun stores s calls i).notified.filter fun told =>
      told.1.recipient = value.recipient && told.1.sequence = value.sequence).length ≤ 1 := by
  have hsound := h.sound
  obtain ⟨hrecipient, hauthor⟩ := hsound.counted.texts e he
  obtain ⟨-, hmax, hsequence, hr, ha, -⟩ := storedMessage_eq_ok hvalue
  rw [← hr] at hrecipient
  rw [← ha] at hauthor
  rw [← hsequence] at hmax
  refine ⟨fun i j hij hj => ?_, fun transport row i j hij hj hrow hdelivered => ?_,
    fun transport row row' i j hij hj hrow hfailed hrow' hdelivered => ?_, fun i hi => ?_⟩
  · obtain ⟨_, -, hstate⟩ := Database.messageState_eq (d := (statusRun stores s calls i).database)
      hrecipient hauthor hmax
    obtain ⟨_, -, hstate'⟩ := Database.messageState_eq (d := (statusRun stores s calls j).database)
      hrecipient hauthor hmax
    exact ⟨_, _, hstate, hstate',
      messageState_rank_le (statusRun_later hsound hij hj) hrecipient hauthor hmax hstate hstate'⟩
  · exact (statusRun_later hsound hij hj).delivered _ row hrow hdelivered
  · rcases failed_until_pending hsound _ hij hj hrow hfailed with ⟨row'', hrow'', hfailed'⟩ |
      ⟨k, hik, hkj, row'', hrow'', hpending⟩
    · rw [hrow', Option.some.injEq] at hrow''
      rw [← hrow'', hdelivered] at hfailed'
      cases hfailed'
    · refine ⟨k, hik, lt_of_le_of_ne hkj fun heq => ?_, row'', hrow'', hpending⟩
      rw [heq, hrow', Option.some.injEq] at hrow''
      rw [← hrow'', hdelivered] at hpending
      cases hpending
  · have htold := stateAt_invariant
      (I := fun s : MailSystem => s.database.Sound ∧ ToldOnce value.recipient value.sequence s)
      ⟨hsound, by simp [hnotified], by simp [hnotified]⟩
      (fun _ _ hi => ⟨(StatusCall.next_advances stores hi.1 _).1,
        StatusCall.next_notified hi.1 hi.2 _⟩) i hi
    exact htold.2.1

/-- A system with one stored message. -/
def oneMessageSystem : MailSystem :=
  ⟨⟨oneMessageDatabase.toTables, 1700000060, .empty⟩, oneMessageDatabase.conversationReads, []⟩

/-- The acknowledgement of the message arrives twice, and then a timeout. -/
theorem deliveryState_forward_oneMessage :
    ((statusRun ⟨true, true⟩ oneMessageSystem [.delivered (str "K1XYZ", 1),
      .delivered (str "K1XYZ", 1),
      .failed (str "K1XYZ", 1)] 3).notified.filter fun told =>
        told.1.recipient = str "K1XYZ" && told.1.sequence = 1).length ≤ 1 := by
  have he : ((str "K1XYZ", 1), (⟨1, 1700000000, 1700000000, str "EA1ABC", [55, 51]⟩ : MessageRow)) ∈
      oneMessageSystem.core.tables.messages.entries := by decide +kernel
  have hvalue : storedMessage ((str "K1XYZ", 1),
    ⟨1, 1700000000, 1700000000, str "EA1ABC", [55, 51]⟩) =
      .ok ⟨1, 1700000000, 1700000000, str "EA1ABC", str "K1XYZ", str "73", 1⟩ := by decide +kernel
  have hreachable : oneMessageSystem.database.Reachable :=
    .call .fresh (.store (.message
      (.storeMessage 1700000000 (str "EA1ABC") (str "K1XYZ") (str "73") 1700000000 [])))
  exact (deliveryState_forward hreachable rfl he hvalue [.delivered (str "K1XYZ", 1),
    .delivered (str "K1XYZ", 1), .failed (str "K1XYZ", 1)]).2.2.2 3 le_rfl

end OpenQSP
