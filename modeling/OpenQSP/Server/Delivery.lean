import OpenQSP.Server.Presence

/-!
# Delivery states

A mark of the APRS transport writes the state of one delivery, and nothing else. It raises where
there is no such message, so whether a mark can be made depends on the messages alone.

## Main definitions

* `CoreState.CanMark` — the message of a delivery exists
* `Tables.marked` — the tables after a mark

## Main results

* `upsertDelivery_run`, `setDelivery_run` — what a mark does
* `markAprsPending_run`, `markAprsFailed_run`
* `setAprsDelivery_messages`, `markAprsDelivered_messages` — messages are never touched
-/

namespace OpenQSP

open Session

namespace Tables

/-- A delivery is named by a mailbox and a sequence that the driver can bind, and its message
exists. -/
def CanMark (t : Tables) (delivery : Str × ℤ) : Prop :=
  (encodeUtf8 delivery.1).isSome ∧ delivery.2 ≤ maxSqliteInteger ∧
    ∃ e ∈ t.messages.entries, e.1.1 = delivery.1 ∧ (e.1.2 : ℤ) = delivery.2

instance (t : Tables) (delivery : Str × ℤ) : Decidable (t.CanMark delivery) :=
  inferInstanceAs (Decidable (_ ∧ _ ∧ _))

/-- The primary key of the APRS state of a delivery. -/
def deliveryKey (delivery : Str × ℤ) : Str × ℕ × Str := (delivery.1, delivery.2.toNat, str "aprs")

/-- The tables after a mark without a time. -/
def marked (t : Tables) (delivery : Str × ℤ) (status : DeliveryStatus) : Tables :=
  if Advances (t.deliveries.get? (deliveryKey delivery)) status then
    { t with deliveries := t.deliveries.set (deliveryKey delivery) ⟨status, none⟩ }
  else t

variable {t t' : Tables} {delivery : Str × ℤ} {status : DeliveryStatus}

@[simp] theorem messages_marked : (t.marked delivery status).messages = t.messages := by
  rw [marked]
  split <;> rfl

/-- A mark without a time raises exactly where the message does not exist. -/
theorem upsertDelivery_run (t : Tables) (delivery : Str × ℤ) (status : DeliveryStatus) :
    (t.CanMark delivery → ∃ changed,
      upsertDelivery delivery.1 delivery.2 (str "aprs") status none t =
        .ok (changed, t.marked delivery status)) ∧
    (¬t.CanMark delivery → ∃ e,
      upsertDelivery delivery.1 delivery.2 (str "aprs") status none t = .error e) := by
  constructor
  · rintro ⟨htext, hmax, row, hrow, hrecipient, hsequence⟩
    have haprs : bindText (str "aprs") = .ok (str "aprs") := by decide
    have hforeign : ∃ e ∈ t.messages.entries, e.1.1 = delivery.1 ∧ (e.1.2 : ℤ) = delivery.2 :=
      ⟨row, hrow, hrecipient, hsequence⟩
    have hchecks : upsertDelivery delivery.1 delivery.2 (str "aprs") status none t =
        if Advances (t.deliveries.get? (deliveryKey delivery)) status then
          .ok (true, { t with
            deliveries := t.deliveries.set (deliveryKey delivery) ⟨status, none⟩ })
        else .ok (false, t) := by
      rw [upsertDelivery, bindText_eq_ok.mpr ⟨rfl, htext⟩, Py.ok_bind, ← hsequence,
        bindInteger_of_natCast (hsequence ▸ hmax), Py.ok_bind, haprs, Py.ok_bind, hsequence,
        bindOptional, Py.ok_bind, raiseIf_of_not (by simp), Py.ok_bind,
        raiseIf_of_not (not_not.mpr hforeign), Py.ok_bind]
      rfl
    rw [hchecks, marked]
    split
    · exact ⟨true, rfl⟩
    · exact ⟨false, rfl⟩
  · intro h
    rcases hrun : upsertDelivery delivery.1 delivery.2 (str "aprs") status none t with e | result
    · exact ⟨e, rfl⟩
    · refine absurd ?_ h
      obtain ⟨recipient, hrecipient, hrun⟩ := Py.bind_eq_ok.mp hrun
      obtain ⟨sequence, hsequence, hrun⟩ := Py.bind_eq_ok.mp hrun
      obtain ⟨transport, -, hrun⟩ := Py.bind_eq_ok.mp hrun
      obtain ⟨deliveredAt, -, hrun⟩ := Py.bind_eq_ok.mp hrun
      obtain ⟨_, -, hrun⟩ := Py.bind_eq_ok.mp hrun
      obtain ⟨_, hforeign, -⟩ := Py.bind_eq_ok.mp hrun
      obtain ⟨rfl, htext⟩ := bindText_eq_ok.mp hrecipient
      rw [raiseIf_eq_ok, not_not, bindInteger_eq_ok hsequence] at hforeign
      refine ⟨htext, ?_, hforeign⟩
      rw [bindInteger] at hsequence
      split at hsequence
      · next hrange => exact hrange.2
      · cases hsequence

end Tables

open Tables

/-- A mark is one statement in a transaction of its own. -/
theorem setDelivery_run (t : Tables) (recipient : Str) (sequence : ℤ) (transport : Str)
    (status : DeliveryStatus) (deliveredAt : Option ℤ) :
    (setDelivery recipient sequence transport status deliveredAt []).run t =
      match upsertDelivery recipient sequence transport status deliveredAt t with
      | .ok (changed, t') => (.ok changed, t')
      | .error e => (.error e, t) := by
  rw [setDelivery, run_closing_atomically_nil, Method.run_bind, run_execute]
  cases upsertDelivery recipient sequence transport status deliveredAt t <;> rfl

namespace CoreState

variable {stores : Stores}

/-- Without a message store a mark does nothing; else the message must exist. -/
def CanMark (stores : Stores) (delivery : Str × ℤ) (core : CoreState) : Prop :=
  stores.messages = true → core.tables.CanMark delivery

instance (delivery : Str × ℤ) (core : CoreState) : Decidable (core.CanMark stores delivery) :=
  inferInstanceAs (Decidable (_ → _))

/-- The core after a mark without a time. -/
def marked (stores : Stores) (delivery : Str × ℤ) (status : DeliveryStatus) (core : CoreState) :
    CoreState :=
  if stores.messages then { core with tables := core.tables.marked delivery status } else core

theorem setAprsDelivery_run (stores : Stores) (delivery : Str × ℤ) (status : DeliveryStatus)
    (core : CoreState) :
    (core.CanMark stores delivery → ∃ changed,
      (setAprsDelivery stores delivery.1 delivery.2 status none).run core =
        (.ok changed, core.marked stores delivery status)) ∧
    (¬core.CanMark stores delivery → ∃ e,
      (setAprsDelivery stores delivery.1 delivery.2 status none).run core = (.error e, core)) := by
  rw [setAprsDelivery, CanMark, marked]
  split
  · next hstores =>
    obtain ⟨hok, herror⟩ := upsertDelivery_run core.tables delivery status
    have hrun := setDelivery_run core.tables delivery.1 delivery.2 (str "aprs") status none
    constructor
    · intro hmark
      obtain ⟨changed, h⟩ := hok (hmark hstores)
      rw [h] at hrun
      exact ⟨changed, by simp only [onTables, hrun]⟩
    · intro hmark
      obtain ⟨e, h⟩ := herror fun h => hmark fun _ => h
      rw [h] at hrun
      exact ⟨e, by simp only [onTables, hrun]⟩
  · next hstores => exact ⟨fun _ => ⟨false, rfl⟩, fun h => absurd (absurd · hstores) h⟩

theorem markAprsPending_run (delivery : Str × ℤ) (core : CoreState) :
    (core.CanMark stores delivery →
      (markAprsPending stores delivery).run core = (.ok (), core.marked stores delivery .pending)) ∧
    (¬core.CanMark stores delivery → ∃ e,
      (markAprsPending stores delivery).run core = (.error e, core)) := by
  obtain ⟨hok, herror⟩ := setAprsDelivery_run stores delivery .pending core
  constructor
  · intro h
    obtain ⟨changed, hrun⟩ := hok h
    exact Method.run_bind_of_ok hrun _
  · intro h
    obtain ⟨e, hrun⟩ := herror h
    exact ⟨e, Method.run_bind_of_error hrun _⟩

theorem markAprsFailed_run (delivery : Str × ℤ) (core : CoreState) :
    (core.CanMark stores delivery →
      (markAprsFailed stores delivery).run core = (.ok (), core.marked stores delivery .failed)) ∧
    (¬core.CanMark stores delivery → ∃ e,
      (markAprsFailed stores delivery).run core = (.error e, core)) := by
  obtain ⟨hok, herror⟩ := setAprsDelivery_run stores delivery .failed core
  constructor
  · intro h
    obtain ⟨changed, hrun⟩ := hok h
    exact Method.run_bind_of_ok hrun _
  · intro h
    obtain ⟨e, hrun⟩ := herror h
    exact ⟨e, Method.run_bind_of_error hrun _⟩

/-! ### What a mark leaves alone -/

/-- The messages of the database. -/
def messages (core : CoreState) : OrderedDict (Str × ℕ) MessageRow := core.tables.messages

theorem setAprsDelivery_messages (recipient : Str) (sequence : ℤ) (status : DeliveryStatus)
    (deliveredAt : Option ℤ) :
    (setAprsDelivery stores recipient sequence status deliveredAt).Moves
      (Method.Keeps messages) := by
  refine Method.Moves.ite (fun core => ?_) (Method.Moves.pure _)
  show ((setDelivery recipient sequence (str "aprs") status deliveredAt []).run
    core.tables).2.messages = core.tables.messages
  rw [setDelivery_run]
  rcases h : upsertDelivery recipient sequence (str "aprs") status deliveredAt core.tables with
    e | ⟨changed, t⟩
  · rfl
  · obtain ⟨deliveries, rfl⟩ := upsertDelivery_eq_ok h
    rfl

theorem markAprsPending_messages (delivery : Str × ℤ) :
    (markAprsPending stores delivery).Moves (Method.Keeps messages) :=
  Method.Moves.bind (setAprsDelivery_messages _ _ _ _) fun _ => Method.Moves.pure _

theorem markAprsFailed_messages (delivery : Str × ℤ) :
    (markAprsFailed stores delivery).Moves (Method.Keeps messages) :=
  Method.Moves.bind (setAprsDelivery_messages _ _ _ _) fun _ => Method.Moves.pure _

theorem markAprsDelivered_messages (delivery : Str × ℤ) :
    (markAprsDelivered stores delivery).Moves (Method.Keeps messages) := by
  refine Method.Moves.get_bind fun core => ?_
  refine Method.Moves.bind (setAprsDelivery_messages _ _ _ _) fun _ => Method.Moves.when ?_
  refine Method.Moves.get_bind fun core => ?_
  exact Method.Moves.bind (Method.Moves.ofExcept _) fun _ => Method.Moves.pure _

theorem setAprs_messages (callsign endpoint : Str) :
    (setAprs callsign endpoint).Moves (Method.Keeps messages) := by
  refine Method.Moves.bind (Method.Moves.ofExcept _) fun _ => ?_
  exact Method.Moves.bind (Method.Moves.ofExcept _) fun _ => Method.Moves.modify fun _ => rfl

end CoreState

end OpenQSP
