import OpenQSP.Server.Delivery
import OpenQSP.Server.Frames

/-!
# What can be delivered

Every message that Core answers with is a row of its database, so that its delivery can be marked.
Recording a delivery also needs a time that the database takes, and reads the message back.

## Main definitions

* `Deliverable` — the messages of an answer can be marked
* `CoreState.CanDeliver` — a delivery can be recorded

## Main results

* `dispatch_deliverable`
* `markAprsDelivered_returns_iff` — when recording a delivery returns
-/

namespace OpenQSP

open Method

/-- Every message of the answer can be marked. -/
def Deliverable (t : Tables) (responses : List ProtocolObject) : Prop :=
  ∀ message, .message message ∈ responses → t.CanMark (message.recipient, message.sequence)

variable {stores : Stores} {clock : ℤ} {callsign : Str} {t t' : Tables}

theorem Deliverable.error (error : Error) : Deliverable t [.error error] := by
  intro message hmem
  simp at hmem

/-- A message that was read from a mailbox is a row of it. -/
theorem canMark_of_mailbox {recipient : Str} {row : (Str × ℕ) × MessageRow} {apiSequence : ℕ}
    {stored : StoredMessage} (hencodable : (encodeUtf8 recipient).isSome)
    (hrow : row ∈ t.mailbox recipient)
    (hstored : storedMessage (row.1, { row.2 with apiSequence }) = .ok stored) :
    t.CanMark (stored.recipient, (stored.sequence : ℤ)) := by
  obtain ⟨hmem, hrecipient⟩ := List.mem_filter.mp ((List.mem_insertionSort _).mp hrow)
  obtain rfl := of_decide_eq_true hrecipient
  obtain ⟨-, hmax, hsequence, heq, -⟩ := storedMessage_eq_ok hstored
  have hbound : maxU32 ≤ maxSqliteInteger := by decide
  refine ⟨?_, ?_, row, hmem, heq.symm, ?_⟩
  · rw [heq]
    exact hencodable
  · rw [hsequence]
    exact Int.ofNat_le.mpr (le_trans hmax hbound)
  · rw [hsequence]

theorem handleGetNewMessages_deliverable (request : GetNewMessages) :
    (handleGetNewMessages stores callsign request).Yields t fun outcome _ =>
      ∀ responses, outcome = .ok responses → Deliverable t responses := by
  have herror : ∀ {code detail}, (pure [errorResponse .getNewMessages code detail] :
      Method PyError Tables (List ProtocolObject)).Yields t fun outcome _ =>
        ∀ responses, outcome = .ok responses → Deliverable t responses := by
    rintro code detail responses hresponses
    obtain rfl := Except.ok.inj hresponses
    exact .error _
  have hraised : ∀ {e : PyError}, (raise e : Method PyError Tables (List ProtocolObject)).Yields t
      fun outcome _ => ∀ responses, outcome = .ok responses → Deliverable t responses := by
    intro e _ h
    cases h
  rw [handleGetNewMessages]
  split
  · exact herror
  rw [withCallsign]
  split
  · next value hvalue =>
    obtain rfl := validateCallsign_eq hvalue
    have hencodable := validateCallsign_encodable hvalue
    refine Yields.get_bind ?_
    split
    · next e _ =>
      rw [Yields, run_ofExcept]
      intro responses h
      obtain ⟨code, detail, rfl⟩ := pageError_eq_ok h
      exact .error _
    · next page hpage =>
      refine Yields.ofExcept_bind (fun messages hmessages responses hresponses => ?_)
        fun _ _ => hraised
      obtain rfl := Except.ok.inj hresponses
      intro message hmem
      simp only [List.mem_append, List.mem_map, ProtocolObject.message.injEq, exists_eq_right,
        List.mem_singleton, reduceCtorEq, or_false] at hmem
      obtain ⟨stored, hstored, hevent⟩ := Py.exists_of_mem_mapM hmessages hmem
      obtain ⟨_, -, hmessage⟩ := Py.bind_eq_ok.mp hevent
      rw [← Except.ok.inj hmessage]
      obtain ⟨_, -, hpage⟩ := Py.bind_eq_ok.mp hpage
      obtain ⟨_, -, hpage⟩ := Py.bind_eq_ok.mp hpage
      obtain ⟨state, -, hpage⟩ := Py.bind_eq_ok.mp hpage
      obtain ⟨highest, -, hpage⟩ := Py.bind_eq_ok.mp hpage
      obtain ⟨_, -, hpage⟩ := Py.bind_eq_ok.mp hpage
      obtain ⟨stored', hrows, hpage⟩ := Py.bind_eq_ok.mp hpage
      obtain rfl := Except.ok.inj hpage
      obtain ⟨row, hrow, hread⟩ := Py.exists_of_mem_mapM hrows hstored
      exact canMark_of_mailbox hencodable
        (List.mem_filter.mp (List.mem_of_mem_take (List.mem_of_mem_take hrow))).1 hread
  · split
    · exact herror
    · exact hraised

theorem handleGetMessage_deliverable (request : GetMessage) :
    (handleGetMessage stores callsign request).Yields t fun outcome _ =>
      ∀ responses, outcome = .ok responses → Deliverable t responses := by
  have herror : ∀ {code detail}, (pure [errorResponse .getMessage code detail] :
      Method PyError Tables (List ProtocolObject)).Yields t fun outcome _ =>
        ∀ responses, outcome = .ok responses → Deliverable t responses := by
    rintro code detail responses hresponses
    obtain rfl := Except.ok.inj hresponses
    exact .error _
  have hraised : ∀ {e : PyError}, (raise e : Method PyError Tables (List ProtocolObject)).Yields t
      fun outcome _ => ∀ responses, outcome = .ok responses → Deliverable t responses := by
    intro e _ h
    cases h
  rw [handleGetMessage]
  split
  · exact herror
  rw [withCallsign]
  split
  · next value hvalue =>
    obtain rfl := validateCallsign_eq hvalue
    have hencodable := validateCallsign_encodable hvalue
    split
    · split
      · exact herror
      · exact hraised
    refine Yields.get_bind ?_
    split
    · split
      · exact herror
      · exact hraised
    · exact herror
    · next stored hstored =>
      intro responses hresponses
      obtain rfl := Except.ok.inj hresponses
      intro message hmem
      obtain rfl := ProtocolObject.message.inj (List.mem_singleton.mp hmem)
      obtain ⟨_, -, hstored⟩ := Py.bind_eq_ok.mp hstored
      obtain ⟨_, -, hstored⟩ := Py.bind_eq_ok.mp hstored
      obtain ⟨recipient, hrecipient, hstored⟩ := Py.bind_eq_ok.mp hstored
      obtain ⟨author, -, hstored⟩ := Py.bind_eq_ok.mp hstored
      have hsame := (Tables.bindText_eq_ok.mp hrecipient).1
      dsimp only at hstored
      split at hstored
      · cases hstored
      · next row hrow =>
        obtain ⟨stored', hread, hstored⟩ := Py.bind_eq_ok.mp hstored
        obtain rfl := Option.some.inj (Except.ok.inj hstored)
        have hmailbox := (List.mem_filter.mp (List.mem_of_getElem? hrow)).1
        rw [hsame] at hmailbox
        exact canMark_of_mailbox hencodable hmailbox hread
  · split
    · exact herror
    · exact hraised

/-- Every message of an answer can be marked in the database that the request leaves. -/
theorem dispatch_deliverable {request : ProtocolObject} {responses : List ProtocolObject}
    {events : List Message}
    (h : (dispatch stores clock callsign request).run t = (.ok (responses, events), t')) :
    Deliverable t' responses := by
  have hquiet : ∀ {m : Method PyError Tables (List ProtocolObject)},
      (m.Yields t fun outcome _ => ∀ responses, outcome = .ok responses → Deliverable t responses) →
      (m >>= fun responses => pure (responses, ([] : List Message))).run t =
        (.ok (responses, events), t') → Deliverable t responses := by
    intro m hm hrun
    rw [run_bind_pure] at hrun
    rcases hres : (m.run t).1 with e | responses'
    · rw [hres] at hrun
      cases hrun
    · rw [hres] at hrun
      obtain ⟨rfl, -⟩ := Prod.mk.inj (Except.ok.inj (Prod.mk.inj hrun).1)
      exact hm _ hres
  obtain ⟨hanswers, ⟨value, rfl, -⟩ | ⟨rfl, -⟩⟩ := dispatch_cases h
  · intro message hmem
    cases hanswers <;> simp at hmem
  · cases hanswers with
    | message request value => exact hquiet (handleGetMessage_deliverable request) h
    | messages request messages count nextSince hasMore =>
      exact hquiet (handleGetNewMessages_deliverable request) h
    | _ =>
      intro message hmem
      simp at hmem

/-! ### Recording a delivery -/

namespace CoreState

/-- Without a message store nothing is recorded. Else the message must exist and the clock must be
in the range of the database; and where the row advances, the message is read back. -/
def CanDeliver (stores : Stores) (delivery : Str × ℤ) (core : CoreState) : Prop :=
  stores.messages = true → core.tables.CanMark delivery ∧ 0 ≤ core.clock ∧
    core.clock ≤ maxSqliteInteger ∧
    (Tables.Advances (core.tables.deliveries.get? (Tables.deliveryKey delivery)) .delivered →
      ∃ value, getMessage delivery.1 delivery.2 core.tables = .ok value)

end CoreState

namespace Tables

variable {delivery : Str × ℤ} {time : ℤ}

/-- The upsert of a delivery at a time that the database takes. -/
theorem upsertDelivery_recorded (h : t.CanMark delivery) (hnonneg : 0 ≤ time)
    (hmax : time ≤ maxSqliteInteger) :
    upsertDelivery delivery.1 delivery.2 (str "aprs") .delivered (some time) t =
      if Advances (t.deliveries.get? (deliveryKey delivery)) .delivered then
        .ok (true, { t with
          deliveries := t.deliveries.set (deliveryKey delivery) ⟨.delivered, some time.toNat⟩ })
      else .ok (false, t) := by
  obtain ⟨htext, hsequence, row, hrow, hrecipient, heq⟩ := h
  have hforeign : ∃ e ∈ t.messages.entries, e.1.1 = delivery.1 ∧ (e.1.2 : ℤ) = delivery.2 :=
    ⟨row, hrow, hrecipient, heq⟩
  have haprs : bindText (str "aprs") = .ok (str "aprs") := by decide
  have htime : bindOptional (some time) = .ok (some time) := by
    obtain ⟨n, rfl⟩ := Int.eq_ofNat_of_zero_le hnonneg
    rw [bindOptional, bindInteger_of_natCast hmax]
    rfl
  rw [upsertDelivery, bindText_eq_ok.mpr ⟨rfl, htext⟩, Py.ok_bind, ← heq,
    bindInteger_of_natCast (heq ▸ hsequence), Py.ok_bind, haprs, Py.ok_bind, heq, htime, Py.ok_bind,
    raiseIf_of_not (by simpa using hnonneg), Py.ok_bind, raiseIf_of_not (not_not.mpr hforeign),
      Py.ok_bind]
  rfl

theorem canMark_of_upsertDelivery {result : Bool × Tables}
    (h : upsertDelivery delivery.1 delivery.2 (str "aprs") .delivered (some time) t = .ok result) :
    t.CanMark delivery ∧ 0 ≤ time ∧ time ≤ maxSqliteInteger := by
  simp only [upsertDelivery, Py.bind_eq_ok] at h
  obtain ⟨recipient, hrecipient, sequence, hsequence, transport, -, deliveredAt, hdeliveredAt, _,
    hcheck, _,
    hforeign, -⟩ := h
  obtain ⟨rfl, htext⟩ := bindText_eq_ok.mp hrecipient
  have htime : deliveredAt = some time ∧ time ≤ maxSqliteInteger := by
    rw [bindOptional] at hdeliveredAt
    rcases hbound : bindInteger time with e | bound
    · rw [hbound] at hdeliveredAt
      cases hdeliveredAt
    · rw [hbound] at hdeliveredAt
      rw [← Except.ok.inj hdeliveredAt, bindInteger_eq_ok hbound]
      exact ⟨rfl, bindInteger_le hbound⟩
  rw [raiseIf_eq_ok, htime.1] at hcheck
  rw [raiseIf_eq_ok, not_not, bindInteger_eq_ok hsequence] at hforeign
  exact ⟨⟨htext, bindInteger_le hsequence, hforeign⟩, by simpa using hcheck, htime.2⟩

end Tables

namespace CoreState

/-- Recording a delivery returns exactly where it can be recorded. -/
theorem markAprsDelivered_returns_iff (delivery : Str × ℤ) (core : CoreState) :
    ((markAprsDelivered stores delivery).run core).1 = .ok () ↔
      core.CanDeliver stores delivery := by
  have hset : ∀ {outcome : Py Bool} {core' : CoreState},
      (setAprsDelivery stores delivery.1 delivery.2 .delivered (some core.clock)).run core =
        (outcome, core') →
      ((markAprsDelivered stores delivery).run core).1 = outcome.bind fun changed =>
        if changed then (getMessage delivery.1 delivery.2 core'.tables).map fun _ => ()
        else .ok () := by
    intro outcome core' h
    rw [markAprsDelivered, run_get_bind, run_bind, h]
    rcases outcome with e | _ | _
    · rfl
    · rfl
    · dsimp only
      rw [when_true rfl, run_get_bind, run_bind_pure, run_ofExcept]
      rfl
  rw [CanDeliver]
  cases hstores : stores.messages with
  | false =>
    have hrun : (setAprsDelivery stores delivery.1 delivery.2 .delivered
        (some core.clock)).run core = (.ok false, core) := by
      rw [setAprsDelivery, if_neg (by simp [hstores])]
      rfl
    rw [hset hrun]
    simp [Except.bind]
  | true =>
    have hrecorded : ∀ {changed : Bool} {t : Tables},
        Tables.upsertDelivery delivery.1 delivery.2 (str "aprs") .delivered (some core.clock)
          core.tables = .ok (changed, t) →
        (setAprsDelivery stores delivery.1 delivery.2 .delivered (some core.clock)).run core =
          (.ok changed, { core with tables := t }) := by
      intro changed t h
      rw [setAprsDelivery, if_pos hstores]
      simp only [onTables, setDelivery_run, h]
    have hraised : ∀ {e : PyError},
        Tables.upsertDelivery delivery.1 delivery.2 (str "aprs") .delivered (some core.clock)
          core.tables = .error e →
        (setAprsDelivery stores delivery.1 delivery.2 .delivered (some core.clock)).run core =
          (.error e, core) := by
      intro e h
      rw [setAprsDelivery, if_pos hstores]
      simp only [onTables, setDelivery_run, h]
    have hread : ∀ deliveries : OrderedDict (Str × ℕ × Str) DeliveryRow,
        ((getMessage delivery.1 delivery.2 { core.tables with deliveries }).map fun _ => ()) =
          .ok () ↔
          ∃ value, getMessage delivery.1 delivery.2 core.tables = .ok value := by
      intro deliveries
      rw [show getMessage delivery.1 delivery.2 { core.tables with deliveries } =
        getMessage delivery.1 delivery.2 core.tables from rfl]
      rcases getMessage delivery.1 delivery.2 core.tables with e | value
      · refine ⟨fun h => ?_, ?_⟩
        · cases h
        · rintro ⟨_, h⟩
          cases h
      · exact ⟨fun _ => ⟨value, rfl⟩, fun _ => rfl⟩
    by_cases hmark : core.tables.CanMark delivery ∧ 0 ≤ core.clock ∧ core.clock ≤ maxSqliteInteger
    · obtain ⟨hcan, hnonneg, hmax⟩ := hmark
      have hupsert := Tables.upsertDelivery_recorded hcan hnonneg hmax
      by_cases hadvances : Tables.Advances
          (core.tables.deliveries.get? (Tables.deliveryKey delivery)) .delivered
      · rw [if_pos hadvances] at hupsert
        rw [hset (hrecorded hupsert)]
        exact (hread _).trans ⟨fun h _ => ⟨hcan, hnonneg, hmax, fun _ => h⟩,
          fun h => (h rfl).2.2.2 hadvances⟩
      · rw [if_neg hadvances] at hupsert
        rw [hset (hrecorded hupsert)]
        exact ⟨fun _ _ => ⟨hcan, hnonneg, hmax, fun h => absurd h hadvances⟩, fun _ => rfl⟩
    · rcases hupsert : Tables.upsertDelivery delivery.1 delivery.2 (str "aprs") .delivered
          (some core.clock) core.tables with e | result
      · rw [hset (hraised hupsert)]
        refine ⟨fun h => ?_, fun h => absurd ⟨(h rfl).1, (h rfl).2.1, (h rfl).2.2.1⟩ hmark⟩
        cases h
      · exact absurd (Tables.canMark_of_upsertDelivery hupsert) hmark

end CoreState

end OpenQSP
