import OpenQSP.Server.Deliverable
import OpenQSP.Server.DeliveryStates

/-!
# Pending deliveries

A delivery is pending from the time the APRS transport queues its message until it is marked as
delivered or as failed. Only one of the marks makes a delivery pending, and Core itself none.

## Main definitions

* `CoreState.Pending`

## Main results

* `markAprsPending_pending`, `markAprsFailed_pending`, `markAprsDelivered_pending` — the three marks
* `dispatch_keepsDeliveries` — a request changes no delivery
-/

namespace OpenQSP

open CoreState Method Session Tables

/-- The message store has the delivery as pending. -/
def CoreState.Pending (stores : Stores) (core : CoreState) (delivery : Str × ℤ) : Prop :=
  stores.messages = true ∧ 0 ≤ delivery.2 ∧ core.aprsStatus delivery = some .pending

instance (stores : Stores) (core : CoreState) (delivery : Str × ℤ) :
    Decidable (core.Pending stores delivery) :=
  inferInstanceAs (Decidable (_ ∧ _ ∧ _))

variable {stores : Stores} {core core' : CoreState} {delivery d : Str × ℤ}

theorem CoreState.Pending.congr (h : core.Pending stores d)
    (hdeliveries : core'.tables.deliveries = core.tables.deliveries) : core'.Pending stores d := by
  obtain ⟨hstores, hnonneg, hstatus⟩ := h
  refine ⟨hstores, hnonneg, ?_⟩
  rw [aprsStatus, hdeliveries]
  exact hstatus

theorem deliveryKey_inj (hnonneg : 0 ≤ d.2) (hnonneg' : 0 ≤ delivery.2)
    (h : deliveryKey d = deliveryKey delivery) :
    d = delivery := by
  obtain ⟨hrecipient, h⟩ := Prod.mk.inj h
  obtain ⟨hsequence, -⟩ := Prod.mk.inj h
  exact Prod.ext hrecipient (by omega)

theorem Tables.CanMark.nonneg {t : Tables} (h : t.CanMark delivery) : 0 ≤ delivery.2 := by
  obtain ⟨-, -, row, -, -, hsequence⟩ := h
  omega

/-! ### Marks -/

/-- A mark writes at most the row of its delivery. -/
theorem pending_of_marked {status : DeliveryStatus}
    (h : (core.marked stores delivery status).Pending stores d) :
    core.Pending stores d ∨ (status = .pending ∧ deliveryKey d = deliveryKey delivery) := by
  obtain ⟨hstores, hnonneg, hpending⟩ := h
  rw [CoreState.marked, if_pos hstores, aprsStatus, Tables.marked] at hpending
  split at hpending
  · rw [OrderedDict.get?_set] at hpending
    split at hpending
    · next hkey => exact .inr ⟨Option.some.inj hpending, hkey⟩
    · exact .inl ⟨hstores, hnonneg, hpending⟩
  · exact .inl ⟨hstores, hnonneg, hpending⟩

/-- A row that does not advance is not pending. -/
theorem not_pending_of_not_advances {status : DeliveryStatus}
    (h : ¬Advances (core.tables.deliveries.get? (deliveryKey delivery)) status) :
      ¬core.Pending stores delivery := by
  rintro ⟨-, -, hpending⟩
  rw [Advances, not_not] at h
  obtain ⟨row, hrow, hstatus⟩ := h
  have hrow' : core.aprsStatus delivery = some row.status := by
    rw [aprsStatus, show core.tables.deliveries.get? (delivery.1, delivery.2.toNat, str "aprs") =
      some row from hrow]
    rfl
  rw [hpending] at hrow'
  rw [← Option.some.inj hrow'] at hstatus
  exact hstatus.elim nofun fun h => nomatch h.1

/-- What is marked as anything else is not pending. -/
theorem not_pending_marked {status : DeliveryStatus} (hstatus : status ≠ .pending) :
    ¬(core.marked stores delivery status).Pending stores delivery := by
  intro h
  have hstores := h.1
  rw [CoreState.marked, if_pos hstores, Tables.marked] at h
  split at h
  · obtain ⟨-, -, h⟩ := h
    rw [aprsStatus, show (delivery.1, delivery.2.toNat, str "aprs") = deliveryKey delivery from rfl,
      OrderedDict.get?_set, if_pos rfl] at h
    exact hstatus (Option.some.inj h)
  · next hadvances => exact not_pending_of_not_advances hadvances h

namespace CoreState

theorem markAprsPending_pending (h : ((markAprsPending stores delivery).run core).2.Pending
    stores d) :
    core.Pending stores d ∨ d = delivery := by
  by_cases hmark : core.CanMark stores delivery
  · rw [(markAprsPending_run delivery core).1 hmark] at h
    refine (pending_of_marked h).imp_right ?_
    rintro ⟨-, hkey⟩
    exact deliveryKey_inj h.2.1 (hmark h.1).nonneg hkey
  · obtain ⟨e, hrun⟩ := (markAprsPending_run delivery core).2 hmark
    rw [hrun] at h
    exact .inl h

theorem markAprsPending_keepsPresence (delivery : Str × ℤ) :
    (markAprsPending stores delivery).Moves (Keeps CoreState.presence) :=
  Moves.bind (Moves.ite (fun _ => rfl) (Moves.pure _)) fun _ => Moves.pure _

/-- A delivery that failed is not pending any more, and no other one becomes pending. -/
theorem markAprsFailed_pending (h : ((markAprsFailed stores delivery).run core).2.Pending
    stores d) :
    core.Pending stores d ∧ (((markAprsFailed stores delivery).run core).1 = .ok () →
      d ≠ delivery) := by
  by_cases hmark : core.CanMark stores delivery
  · rw [(markAprsFailed_run delivery core).1 hmark] at h
    refine ⟨(pending_of_marked h).resolve_right fun h => (nomatch h.1), fun _ hd => ?_⟩
    exact not_pending_marked (by decide) (hd ▸ h)
  · obtain ⟨e, hrun⟩ := (markAprsFailed_run delivery core).2 hmark
    rw [hrun] at h ⊢
    exact ⟨h, nofun⟩

/-- Reading the message back changes nothing. -/
theorem markAprsDelivered_snd (delivery : Str × ℤ) (core : CoreState) :
    ((markAprsDelivered stores delivery).run core).2 =
      ((setAprsDelivery stores delivery.1 delivery.2 .delivered (some core.clock)).run core).2 := by
  rw [markAprsDelivered, run_get_bind, run_bind]
  rcases (setAprsDelivery stores delivery.1 delivery.2 .delivered (some core.clock)).run core with
    ⟨e | _ | _, core'⟩
  · rfl
  · rfl
  · dsimp only
    rw [when_true rfl, run_get_bind, run_bind_pure, run_ofExcept]

/-- Nor is one that was delivered. -/
theorem markAprsDelivered_pending (h : ((markAprsDelivered stores delivery).run core).2.Pending
    stores d) :
    core.Pending stores d ∧ (((markAprsDelivered stores delivery).run core).1 = .ok () →
      d ≠ delivery) := by
  have hstores := h.1
  rw [markAprsDelivered_snd] at h
  constructor
  · obtain ⟨changed, t, hupserts, hrun⟩ := setAprsDelivery_next stores delivery.1 delivery.2
      .delivered
      (some core.clock) core
    rw [hrun] at h
    rcases hupserts with ⟨-, -, rfl⟩ | ⟨-, rfl⟩
    · obtain ⟨-, hnonneg, h⟩ := h
      rw [aprsStatus, OrderedDict.get?_set] at h
      split at h
      · cases h
      · exact ⟨hstores, hnonneg, h⟩
    · exact h
  · rintro hok rfl
    obtain ⟨hmark, hnonneg, hmax, -⟩ := (markAprsDelivered_returns_iff d core).mp hok hstores
    rw [setAprsDelivery, if_pos hstores] at h
    simp only [onTables, setDelivery_run, upsertDelivery_recorded hmark hnonneg hmax] at h
    by_cases hadvances : Advances (core.tables.deliveries.get? (deliveryKey d)) .delivered
    · simp only [if_pos hadvances] at h
      obtain ⟨-, -, h⟩ := h
      rw [aprsStatus, show (d.1, d.2.toNat, str "aprs") = deliveryKey d from rfl,
        OrderedDict.get?_set,
        if_pos rfl] at h
      cases h
    · simp only [if_neg hadvances] at h
      exact not_pending_of_not_advances hadvances h

end CoreState

/-! ### Requests -/

/-- Storing a message does not touch the deliveries. -/
theorem storeAccepted_keepsDeliveries (author recipient body : Str) (createdAt : ℤ)
    (requestHash : Str) (clock : ℤ) :
    (storeAccepted author recipient body createdAt none requestHash clock).Moves
      (Keeps Tables.deliveries) := by
  refine Moves.bind (fun t => ?_) fun _ => Moves.get_bind fun t =>
    Moves.bind (Moves.ofExcept _) fun stored => ?_
  · obtain ⟨herror, hok⟩ := storeMessage_spec t createdAt author recipient body clock []
    rcases hrun : ((storeMessage createdAt author recipient body clock []).run t).1 with
      e | sequence
    · rw [herror e hrun]
      exact refl_of _ _
    · obtain ⟨message, haccepts, -⟩ := hok sequence hrun
      obtain ⟨data, -, htables⟩ := haccepts.tables_eq
      rw [htables]
      rfl
  · cases stored with
    | none => exact Moves.raise _
    | some stored => exact Moves.pure _

theorem handleSendMessage_keepsDeliveries (clock : ℤ) (callsign : Str) (request : SendMessage) :
    (handleSendMessage stores clock callsign request).Moves (Keeps Tables.deliveries) := by
  have haccept : ∀ author, (acceptMessage author request.recipient request.body
    request.createdAt none []
      clock).Moves (Keeps Tables.deliveries) := by
    intro author
    refine Moves.bind (Moves.ofExcept _) fun _ =>
      Moves.bind (storeAccepted_keepsDeliveries _ _ _ _ _ _) fun _ => ?_
    refine Moves.ite ?_ (Moves.pure _)
    exact Moves.get_bind fun t => Moves.bind (Moves.ofExcept _) fun _ => Moves.pure _
  refine Moves.ite (Moves.pure _) ?_
  rw [withCallsign]
  split
  · refine Moves.catchError (Moves.bind (haccept _) fun _ => Moves.pure _) fun e => ?_
    exact Moves.ite (Moves.pure _) (Moves.ite (Moves.pure _) (Moves.raise _))
  · exact Moves.ite (Moves.pure _) (Moves.raise _)

/-- A request changes no delivery: all but `SEND_MESSAGE` only read. -/
theorem dispatch_keepsDeliveries (clock : ℤ) (callsign : Str) (request : ProtocolObject) :
    (dispatch stores clock callsign request).Moves (Keeps Tables.deliveries) := by
  have hread : ∀ {P : List ProtocolObject → Prop} {m : Method PyError Tables (List ProtocolObject)},
    Reads P m →
      (do return (← m, []) : Method PyError Tables (List ProtocolObject × List Message)).Moves
        (Keeps Tables.deliveries) := fun hm =>
    Moves.bind (fun t => congrArg Tables.deliveries (hm t).1) fun _ => Moves.pure _
  cases request with
  | sendMessage request => exact handleSendMessage_keepsDeliveries clock callsign request
  | getMessage request => exact hread (handleGetMessage_reads request)
  | getNewMessages request => exact hread (handleGetNewMessages_reads request)
  | getNewBulletins request => exact hread (handleGetNewBulletins_reads request)
  | getBulletin request => exact hread (handleGetBulletin_reads request)
  | _ => exact Moves.pure _

end OpenQSP
