import OpenQSP.Aprs.Disconnection
import OpenQSP.Aprs.Orphans
import OpenQSP.Aprs.Progress
import OpenQSP.Aprs.Turns

/-!
# How a delivery is settled

The APRS state of a delivery becomes delivered only when the peer acknowledges the transaction
that carries its message, and all fragments of that frame had been sent to the peer before. It
becomes failed only when `poll` gives that transaction up. Nothing else settles a delivery: the
other two ways that the code has, a cursor that covers the message and an acknowledgement of a
single packet, look at tables of the base class that this adapter never fills.

## Main definitions

* `Parcel.Labelled`, `Labels` — a transaction carries the message that it delivers
* `LeavesOpen` — a method settles nothing
* `Call.LeavesOpen` — what others do settles nothing
* `Acknowledges`, `GivesUp` — the two ways to settle a delivery

## Main results

* `receive_leavesOpen`, `receiveControl_settlement`, `pollEmissions_settlement`
* **`deliveries_settled`**
-/

namespace OpenQSP

open APRSAdapter Method Py Tables

variable {setup : Setup} {peer : Str} {key : TransactionKey} {s s' : APRSAdapter} {now : ℚ}

/-! ### Marks -/

namespace CoreState

variable {stores : Stores} {core : CoreState} {delivery d : Str × ℤ} {status : DeliveryStatus}

theorem aprsStatus_eq (core : CoreState) (d : Str × ℤ) :
    core.aprsStatus d = (core.tables.deliveries.get? (deliveryKey d)).map (·.status) := rfl

/-- A mark writes at most the state of its delivery. -/
theorem setAprsDelivery_status {mark : DeliveryStatus} {deliveredAt : Option ℤ}
    (h : ((setAprsDelivery stores delivery.1 delivery.2 mark deliveredAt).run core).2.aprsStatus d =
      some status) :
    core.aprsStatus d = some status ∨ (status = mark ∧ deliveryKey d = deliveryKey delivery) := by
  obtain ⟨changed, t, hupserts, hrun⟩ :=
    setAprsDelivery_next stores delivery.1 delivery.2 mark deliveredAt core
  rw [hrun] at h
  rcases hupserts with ⟨-, -, rfl⟩ | ⟨-, rfl⟩
  · rw [aprsStatus_eq, OrderedDict.get?_set] at h
    split at h
    · next hkey => exact .inr ⟨(Option.some.inj h).symm, hkey⟩
    · exact .inl h
  · exact .inl h

theorem markAprsPending_status
    (h : ((markAprsPending stores delivery).run core).2.aprsStatus d = some status)
    (hstatus : status ≠ .pending) : core.aprsStatus d = some status := by
  rw [markAprsPending, run_discard_snd] at h
  exact (setAprsDelivery_status h).resolve_right fun hmark => hstatus hmark.1

theorem markAprsFailed_status
    (h : ((markAprsFailed stores delivery).run core).2.aprsStatus d = some status) :
    core.aprsStatus d = some status ∨
      (status = .failed ∧ deliveryKey d = deliveryKey delivery) := by
  rw [markAprsFailed, run_discard_snd] at h
  exact setAprsDelivery_status h

theorem markAprsDelivered_status
    (h : ((markAprsDelivered stores delivery).run core).2.aprsStatus d = some status) :
    core.aprsStatus d = some status ∨
      (status = .delivered ∧ deliveryKey d = deliveryKey delivery) := by
  rw [markAprsDelivered_snd] at h
  exact setAprsDelivery_status h

end CoreState

/-! ### Settling nothing -/

/-- What has a delivery carries the message of that delivery. -/
def Parcel.Labelled (p : Parcel) : Prop :=
  ∀ d, p.delivery = some d → ∃ message unsolicited frame,
    encodeFrame (.message message) unsolicited = .ok frame ∧
    fragmentFrameV2 frame p.transactionId = .ok p.fragments ∧
    d = (message.recipient, message.sequence)

/-- While the tables of the base class are empty, they stay so, no delivery is settled, and what is
new carries the message that it delivers. -/
def LeavesOpen (s s' : APRSAdapter) : Prop :=
  s.queue = [] ∧ s.pending = .empty → (s'.queue = [] ∧ s'.pending = .empty) ∧
    (∀ d status, status ≠ .pending → s'.core.aprsStatus d = some status →
      s.core.aprsStatus d = some status) ∧
    ∀ p ∈ s'.outbound.parcels, p ∈ s.outbound.parcels ∨ p.Labelled

instance : IsPreorder APRSAdapter LeavesOpen where
  refl s := fun hbase => ⟨hbase, fun _ _ _ h => h, fun _ h => .inl h⟩
  trans s s' s'' h h' := fun hbase => by
    obtain ⟨hbase', hsettled, hheld⟩ := h hbase
    obtain ⟨hbase'', hsettled', hheld'⟩ := h' hbase'
    refine ⟨hbase'', fun d status hstatus hd => ?_, fun p hp => ?_⟩
    · exact hsettled d status hstatus (hsettled' d status hstatus hd)
    · exact (hheld' p hp).elim (hheld p) .inr

namespace LeavesOpen

theorem of_outbound (hout : s'.outbound = s.outbound)
    (hdeliveries : s'.core.tables.deliveries = s.core.tables.deliveries) : LeavesOpen s s' := by
  intro hbase
  refine ⟨⟨?_, ?_⟩, fun d status _ h => ?_, fun p hp => .inl ?_⟩
  · exact (congrArg Outbound.baseQueue hout).trans hbase.1
  · exact (congrArg Outbound.basePending hout).trans hbase.2
  · rwa [CoreState.aprsStatus_eq, hdeliveries] at h
  · rwa [hout] at hp

theorem of_moves {α : Type} {m : Adapter α} (hout : KeepsOutbound m)
    (hledger : m.Moves (Keeps APRSAdapter.ledger)) : m.Moves LeavesOpen :=
  fun s => of_outbound (hout s) (Prod.mk.inj (hledger s)).2

/-- Transactions may be dropped. -/
theorem of_drop (p : BurstTx → Bool) (q : Str × BurstTx → Bool) (s : APRSAdapter) :
    LeavesOpen s { s with
      burstQueue := s.burstQueue.filter p
      burstActive := s.burstActive.filter q } := by
  refine fun hbase => ⟨hbase, fun _ _ _ h => h, fun parcel hparcel => .inl ?_⟩
  obtain ⟨tx, htx, rfl⟩ := List.mem_map.mp hparcel
  refine List.mem_map_of_mem (Outbound.mem_held.mpr ?_)
  exact (Outbound.mem_held.mp htx).imp List.mem_of_mem_filter OrderedDict.mem_values_of_filter

theorem supersedeStaleBatches (s : APRSAdapter) :
    LeavesOpen s (supersedeStaleBatches peer key s) := by
  rw [supersedeStaleBatches_eq]
  refine trans_of LeavesOpen (fun hbase => ?_) (of_drop _ _ (supersedeBase peer key s))
  refine ⟨⟨?_, ?_⟩, fun _ _ _ h => h, fun _ h => .inl h⟩
  · show s.queue.filter _ = []
    rw [hbase.1]
    rfl
  · show s.pending.filter _ = .empty
    rw [hbase.2]
    rfl

theorem supersedeForProactive (s : APRSAdapter) :
    LeavesOpen s (supersedeForProactive peer s) := by
  rw [OpenQSP.supersedeForProactive]
  split
  · exact refl_of _ _
  · split
    · exact refl_of _ _
    · exact of_drop _ _ s

end LeavesOpen

/-! ### Queueing -/

/-- The frame is the message of the delivery that is asked for. -/
def Labels (frame : Bytes) (delivery : Option Delivery) : Prop :=
  ∀ d, delivery = some d → ∃ message unsolicited,
    encodeFrame (.message message) unsolicited = .ok frame ∧
    d = (message.recipient, message.sequence)

theorem Labels.none (frame : Bytes) : Labels frame none := fun _ h => by cases h

theorem queueFrame_leavesOpen {frame : Bytes} {options : QueueOptions}
    (hlabels : Labels frame options.delivery) :
    (queueFrame setup peer frame options).Moves LeavesOpen := by
  intro s
  rcases hpeer : validatePeer peer with e | peer'
  · rw [queueFrame, hpeer]
    exact refl_of LeavesOpen s
  show Yields (queueFrame setup peer frame options) s fun _ s' => LeavesOpen s s'
  have hroom : LeavesOpen s (makeRoom peer options s) := by
    rw [makeRoom]
    split
    · exact LeavesOpen.supersedeForProactive s
    · exact refl_of LeavesOpen s
  refine Yields.mono (queueFrame_spec hpeer s) fun outcome s' hs' => trans_of LeavesOpen hroom ?_
  rcases outcome with e | transactionId
  · obtain ⟨-, next, rfl⟩ := hs'.2 e rfl
    exact .of_outbound rfl rfl
  obtain ⟨-, tx, next, htx, rfl⟩ := hs'.1 transactionId rfl
  refine fun hbase => ⟨hbase, fun _ _ _ h => h, fun parcel hparcel => ?_⟩
  obtain ⟨tx', htx', rfl⟩ := List.mem_map.mp hparcel
  rcases Outbound.mem_held.mp htx' with hqueued | hactive
  · rcases List.mem_append.mp hqueued with hqueued | hnew
    · exact .inl (List.mem_map_of_mem (Outbound.mem_held.mpr (.inl hqueued)))
    · rw [List.mem_singleton.mp hnew]
      refine .inr fun d hd => ?_
      obtain ⟨message, unsolicited, hencode, rfl⟩ := hlabels d (htx.delivery_eq ▸ hd)
      exact ⟨message, unsolicited, frame, hencode, htx.fragments_eq, rfl⟩
  · exact .inl (List.mem_map_of_mem (Outbound.mem_held.mpr (.inr hactive)))

theorem markPending_leavesOpen (delivery : Option Delivery) :
    (markDelivery (CoreState.markAprsPending setup.stores) delivery).Moves LeavesOpen := by
  cases delivery with
  | none => exact Moves.pure _
  | some delivery => exact fun s hbase => ⟨hbase, fun d status hstatus h =>
      CoreState.markAprsPending_status h hstatus, fun _ h => .inl h⟩

theorem deliverMessage_leavesOpen (message : Message) (endpoint : Str) :
    (deliverMessage setup message endpoint).Moves LeavesOpen := by
  refine Moves.ofExcept_bind fun frame hframe => ?_
  refine Moves.bind (queueFrame_leavesOpen fun d hd => ?_) fun _ =>
    markPending_leavesOpen (some _)
  exact ⟨message, true, hframe, (Option.some.inj hd).symm⟩

theorem routeMessage_leavesOpen (message : Message) :
    (routeMessage setup message).Moves LeavesOpen := by
  refine Moves.ite (Moves.catchError ?_ fun _ => Moves.pure _) (Moves.pure _)
  refine Moves.get_bind fun s => Moves.bind (Moves.ofExcept _) fun endpoint => ?_
  cases endpoint with
  | none => exact Moves.pure _
  | some endpoint => exact deliverMessage_leavesOpen _ _

/-! ### Requests -/

theorem executeFrame_leavesOpen (callsign : Str) (frame : Bytes) :
    (executeFrame setup key callsign frame).Moves LeavesOpen := by
  have hdispatch : ∀ callsign request,
      (dispatchRouted setup callsign request).Moves LeavesOpen := by
    intro callsign request
    refine Moves.get_bind fun s => Moves.bind (fun s' => ?_) fun _ =>
      Moves.bind (Moves.forM fun _ _ => routeMessage_leavesOpen _) fun _ => Moves.pure _
    exact .of_outbound rfl (dispatch_keepsDeliveries _ callsign request s'.core.tables)
  intro s
  exact trans_of LeavesOpen (handleFrame_moves hdispatch callsign frame s) (.of_outbound rfl rfl)

theorem confirmInbound_leavesOpen (messageId : Option Str) (accepted : Bool) :
    (confirmInbound setup peer messageId accepted).Moves LeavesOpen :=
  .of_moves (confirmInbound_keepsOutbound _ _) (confirmInbound_keepsLedger _ _)

theorem activateAprs_leavesOpen (responses : List Bytes) :
    (activateAprs setup peer responses).Moves LeavesOpen :=
  .of_moves (activateAprs_keepsOutbound _) (activateAprs_keepsLedger _)

/-- The base class has nothing that a cursor could confirm. -/
theorem reconcileRequest_leavesOpen (callsign : Str) (request : ProtocolObject) :
    (reconcileRequest setup peer callsign request).Moves LeavesOpen := by
  intro s hbase
  have hkept : Yields (reconcileRequest setup peer callsign request) s fun _ s' =>
      s'.outbound = s.outbound ∧ s'.core = s.core := by
    cases request with
    | getNewMessages request =>
      refine Yields.get_bind ?_
      rw [hbase.1, hbase.2]
      have hsame : ∀ {queue pending}, queue = s.queue → pending = s.pending →
          (⟨s.burstQueue, s.burstActive, s.burstOrder, s.lastSend, s.endings, s.reports, queue,
            pending⟩ : Outbound) = s.outbound := by
        rintro _ _ rfl rfl
        rfl
      refine ⟨hsame ?_ ?_, rfl⟩
      · show s.queue.filter _ = s.queue
        rw [hbase.1]
        rfl
      · show s.pending.filter _ = s.pending
        rw [hbase.2]
        rfl
    | _ => exact ⟨rfl, rfl⟩
  exact LeavesOpen.of_outbound hkept.1 (congrArg (fun core => core.tables.deliveries) hkept.2) hbase

theorem queueResponses_leavesOpen (supersedable : Bool) (responses : List Bytes) :
    (queueResponses setup key supersedable responses).Moves LeavesOpen := by
  refine Moves.forM fun response _ => Moves.ofExcept_bind fun delivery hdelivery => ?_
  refine Moves.bind (queueFrame_leavesOpen fun d hd => ?_) fun _ => markPending_leavesOpen _
  obtain ⟨object, hdecode, hobject⟩ := bind_eq_ok.mp hdelivery
  cases object with
  | message message =>
    refine ⟨message, false, encodeFrame_of_decodeFrame hdecode (fun h => by cases h), ?_⟩
    exact (Option.some.inj ((Except.ok.inj hobject).trans hd)).symm
  | _ => cases (Except.ok.inj hobject).trans hd

theorem finishRequest_leavesOpen (messageId : Option Str) (callsign : Str)
    (request : ProtocolObject) (frame : Bytes) (responses : List Bytes) :
    (finishRequest setup key messageId callsign request frame responses now).Moves
      LeavesOpen := by
  refine Moves.bind (activateAprs_leavesOpen _) fun _ => ?_
  refine Moves.bind (Moves.modify LeavesOpen.supersedeStaleBatches) fun _ => ?_
  refine Moves.bind (Moves.modify fun _ => .of_outbound rfl rfl) fun _ => ?_
  refine Moves.bind (Moves.modify fun _ => .of_outbound rfl rfl) fun _ => Moves.ite ?_ ?_
  · refine Moves.bind (Moves.ofExcept _) fun _ => ?_
    exact Moves.bind (confirmInbound_leavesOpen _ _) fun _ => Moves.pure _
  · exact Moves.bind (queueResponses_leavesOpen _ _) fun _ => Moves.pure _

theorem completeRequest_leavesOpen (messageId : Option Str) (frame : Bytes) :
    (completeRequest setup key messageId frame now).Moves LeavesOpen := by
  refine Moves.bind (Moves.ofExcept _) fun request => Moves.ite ?_ ?_
  · exact Moves.bind (Moves.when (confirmInbound_leavesOpen _ _)) fun _ => Moves.pure _
  · refine Moves.bind (Moves.when (confirmInbound_leavesOpen _ _)) fun _ => ?_
    refine Moves.bind (Moves.ofExcept _) fun callsign => ?_
    refine Moves.bind (reconcileRequest_leavesOpen _ _) fun _ => ?_
    exact Moves.bind (executeFrame_leavesOpen _ _) fun _ => finishRequest_leavesOpen _ _ _ _ _

theorem replayRequest_leavesOpen (messageId : Option Str) (cached : Replay) (frame : Bytes) :
    (replayRequest setup key messageId cached frame).Moves LeavesOpen := by
  refine Moves.ite (Moves.bind (Moves.when (confirmInbound_leavesOpen _ _)) fun _ =>
    Moves.pure _) ?_
  refine Moves.bind (Moves.ofExcept _) fun request => ?_
  refine Moves.bind (activateAprs_leavesOpen _) fun _ => ?_
  refine Moves.bind (Moves.modify LeavesOpen.supersedeStaleBatches) fun _ => Moves.ite ?_ ?_
  · exact Moves.bind (Moves.ofExcept _) fun _ =>
      Moves.bind (confirmInbound_leavesOpen _ _) fun _ => Moves.pure _
  · refine Moves.bind (Moves.when (confirmInbound_leavesOpen _ _)) fun _ => ?_
    refine Moves.bind (Moves.forM fun _ _ => ?_) fun _ => Moves.pure _
    exact Moves.bind (queueFrame_leavesOpen (.none _)) fun _ => Moves.pure _

theorem receiveFragment_leavesOpen (messageId : Option Str) (fragment : APRSFragment) :
    (receiveFragment setup peer messageId fragment now).Moves LeavesOpen := by
  refine Moves.bind (fun s => .of_outbound rfl rfl) fun result => ?_
  rcases result with e | _ | frame
  · exact Moves.ite (Moves.bind (Moves.when (confirmInbound_leavesOpen _ _)) fun _ =>
      Moves.pure _) (Moves.raise _)
  · exact Moves.bind (Moves.when (confirmInbound_leavesOpen _ _)) fun _ => Moves.pure _
  · refine Moves.bind (fun s => .of_outbound rfl rfl) fun cached => ?_
    cases cached with
    | none => exact completeRequest_leavesOpen _ _
    | some cached => exact replayRequest_leavesOpen _ _ _

/-- The base class waits for no acknowledgement of a packet. -/
theorem receiveLegacyAck_leavesOpen (messageId : Str) :
    (receiveLegacyAck setup peer messageId).Moves LeavesOpen := by
  intro s hbase
  have hkept : Yields (receiveLegacyAck setup peer messageId) s fun _ s' => s' = s := by
    refine Yields.get_bind ?_
    rw [hbase.2]
    exact rfl
  have hkept : _ = s := hkept
  rw [hkept]
  exact refl_of LeavesOpen s hbase

theorem receiveCommit_leavesOpen (body : Str) :
    (receiveCommit setup peer body now).Moves LeavesOpen := by
  rw [receiveCommit]
  split
  · exact Moves.ite (Moves.pure _) (Moves.raise _)
  split
  · exact receiveLegacyAck_leavesOpen _
  refine Moves.bind (Moves.when (confirmInbound_leavesOpen _ _)) fun _ => ?_
  split
  · exact Moves.ite (Moves.bind (Moves.when (confirmInbound_leavesOpen _ _)) fun _ =>
      Moves.pure _) (Moves.raise _)
  · exact receiveFragment_leavesOpen _ _

/-! ### Packets -/

theorem sendImmediately_leavesOpen (packet : OutboundPacket) :
    (sendImmediately packet).Moves LeavesOpen := Moves.modify fun _ => .of_outbound rfl rfl

theorem acknowledgeRequest_leavesOpen : (acknowledgeRequest setup key now).Moves LeavesOpen := by
  refine Moves.bind (Moves.ofExcept _) fun _ =>
    Moves.bind (sendImmediately_leavesOpen _) fun _ => ?_
  refine Moves.bind (fun s => .of_outbound rfl rfl) fun found => ?_
  cases found with
  | none => exact Moves.pure _
  | some replay =>
    refine Moves.bind (Moves.ofExcept _) fun _ => Moves.when ?_
    refine Moves.bind (Moves.modify (LeavesOpen.of_drop _ _)) fun _ => ?_
    exact Moves.bind (Moves.ofExcept _) fun _ => sendImmediately_leavesOpen _

theorem receiveBurst_leavesOpen {body : Str} (hcontrol : parseBurstControl body = none) :
    (receiveBurst setup peer body now).Moves LeavesOpen := by
  have hprogress : ∀ progress : APRSAdapter → OrderedDict TransactionKey RxProgress,
      (modify fun s => { s with rxProgress := progress s } : Adapter Unit).Moves LeavesOpen :=
    fun _ => Moves.modify fun _ => .of_outbound rfl rfl
  rw [receiveBurst]
  split
  · exact Moves.ite (Moves.pure _) (Moves.raise _)
  split
  · next control h => cases hcontrol.symm.trans h
  split
  · exact Moves.ite (receiveCommit_leavesOpen _) (Moves.raise _)
  · refine Moves.bind (hprogress _) fun _ => ?_
    refine Moves.bind (receiveCommit_leavesOpen _) fun disposition => ?_
    refine Moves.bind (Moves.when acknowledgeRequest_leavesOpen) fun _ => ?_
    exact Moves.bind (Moves.when (hprogress _)) fun _ => Moves.pure _

/-- A packet that is no control settles nothing. -/
theorem receive_leavesOpen {body : Str} (hcontrol : parseBurstControl body = none) :
    (receive setup peer body now).Moves LeavesOpen := by
  rw [receive]
  split
  · exact Moves.ite (receiveBurst_leavesOpen hcontrol) (Moves.raise _)
  · refine Moves.bind (fun s => .of_outbound rfl rfl) fun found => ?_
    cases found with
    | none => exact receiveBurst_leavesOpen hcontrol
    | some replay =>
      refine Moves.bind (Moves.modify fun _ => .of_outbound rfl rfl) fun _ => ?_
      exact Moves.bind acknowledgeRequest_leavesOpen fun _ => Moves.pure _

/-! ### Controls -/

/-- The delivery of the transaction, if it has one, reaches a state, and no other one does. -/
def Settles.One (tx : BurstTx) (mark : DeliveryStatus) (s s' : APRSAdapter) : Prop :=
  ∀ d status, status ≠ .pending → s'.core.aprsStatus d = some status →
    s.core.aprsStatus d = some status ∨
      status = mark ∧ ∃ delivery, tx.delivery = some delivery ∧ deliveryKey d = deliveryKey delivery

variable (peer) in
/-- The end of an active transaction. -/
theorem endActive_settlement (tx : BurstTx) (acknowledged : Bool) (s : APRSAdapter) :
    (reportDelivery setup (some tx.order) acknowledged tx.delivery).Yields
      (s.endActive peer tx acknowledged) fun _ s' =>
      Settles.One tx (if acknowledged then .delivered else .failed) s s' ∧
      (s'.queue = s.queue ∧ s'.pending = s.pending) ∧ s'.burstOrder = s.burstOrder ∧
      ∀ p ∈ s'.outbound.parcels, p ∈ s.outbound.parcels := by
  have hparcels : ∀ p ∈ (s.endActive peer tx acknowledged).outbound.parcels,
      p ∈ s.outbound.parcels := by
    intro p hp
    obtain ⟨tx', htx', rfl⟩ := List.mem_map.mp hp
    exact List.mem_map_of_mem (Outbound.mem_held.mpr
      ((Outbound.mem_held.mp htx').imp_right OrderedDict.mem_values_of_filter))
  cases hdelivery : tx.delivery with
  | none => exact ⟨fun _ _ _ h => .inl h, ⟨rfl, rfl⟩, rfl, hparcels⟩
  | some delivery =>
    refine ⟨fun d st _ h => ?_, ⟨rfl, rfl⟩, rfl, hparcels⟩
    cases acknowledged with
    | true =>
      exact (CoreState.markAprsDelivered_status h).imp_right
        fun h => ⟨h.1, delivery, hdelivery, h.2⟩
    | false =>
      exact (CoreState.markAprsFailed_status h).imp_right fun h => ⟨h.1, delivery, hdelivery, h.2⟩

/-- A control settles the delivery of the transaction that it acknowledges, and nothing else. -/
theorem receiveControl_settlement (control : BurstControl) (s : APRSAdapter) :
    (receiveControl setup peer control).Yields s fun _ s' =>
      LeavesOpen s s' ∨ ∃ tx, control = .ack tx.transactionId ∧
        s.burstActive.get? peer = some tx ∧ Settles.One tx .delivered s s' ∧
        (s'.queue = s.queue ∧ s'.pending = s.pending) ∧
        ∀ p ∈ s'.outbound.parcels, p ∈ s.outbound.parcels := by
  have hrefresh : (refreshAprsPresence setup peer).Moves fun s s' =>
      s'.outbound = s.outbound ∧ s'.core.tables.deliveries = s.core.tables.deliveries :=
    fun s => ⟨refreshAprsPresence_keepsOutbound s,
      (Prod.mk.inj (refreshAprsPresence_keepsLedger s)).2⟩
  refine Yields.get_bind ?_
  cases hactive : s.burstActive.get? peer with
  | none => exact .inl (refl_of LeavesOpen s)
  | some tx =>
    cases control with
    | ack transactionId =>
      show Yields (if _ then _ else _) _ _
      split
      · exact .inl (refl_of LeavesOpen s)
      next hid =>
      refine Yields.bind_of_moves hrefresh (fun _ s₁ hs₁ => ?_) fun _ _ hs₁ =>
        .inl (.of_outbound hs₁.1 hs₁.2)
      obtain ⟨hout, hdeliveries⟩ := hs₁
      have hcompleted : (completeOutbound setup peer tx).Yields s₁ fun _ s' =>
          ∃ tx', BurstControl.ack transactionId = .ack tx'.transactionId ∧ some tx = some tx' ∧
            Settles.One tx' .delivered s s' ∧ (s'.queue = s.queue ∧ s'.pending = s.pending) ∧
            ∀ p ∈ s'.outbound.parcels, p ∈ s.outbound.parcels := by
        refine Yields.modify_bind (Yields.mono (endActive_settlement peer tx true s₁)
          fun _ s' hs' => ?_)
        obtain ⟨hone, ⟨hqueue, hpending⟩, -, hparcels⟩ := hs'
        refine ⟨tx, by rw [not_not.mp hid], rfl, fun d status hstatus hd => ?_,
          ⟨hqueue.trans (congrArg Outbound.baseQueue hout),
            hpending.trans (congrArg Outbound.basePending hout)⟩, fun p hp => ?_⟩
        · refine (hone d status hstatus hd).imp_left fun h => ?_
          rwa [CoreState.aprsStatus_eq, hdeliveries] at h
        · exact hout ▸ hparcels p hp
      exact Yields.bind hcompleted (fun _ _ hs' => .inr hs') fun _ _ hs' => .inr hs'
    | missing transactionId indices =>
      show Yields (if _ then _ else _) _ _
      split
      · exact .inl (refl_of LeavesOpen s)
      split
      · exact .inl (refl_of LeavesOpen s)
      refine Yields.bind_of_moves hrefresh (fun _ s₁ hs₁ => .inl ?_) fun _ _ hs₁ =>
        .inl (.of_outbound hs₁.1 hs₁.2)
      have hactive₁ : s₁.outbound.active.get? peer = some tx :=
        (congrArg (fun o : Outbound => o.active.get? peer) hs₁.1).trans hactive
      have hparcel : (tx.repaired indices).parcel = tx.parcel := rfl
      have hset := Outbound.parcels_set_active hactive₁ hparcel s₁.lastSend
      have hadjusted : LeavesOpen s₁ { s₁ with
          burstActive := s₁.burstActive.set peer (tx.repaired indices) } :=
        fun hbase => ⟨hbase, fun _ _ _ h => h, fun p hp => .inl (hset ▸ hp)⟩
      exact trans_of LeavesOpen (.of_outbound hs₁.1 hs₁.2) hadjusted

/-! ### Polling -/

/-- The deliveries of the transactions that are given up are failed, and no other one is
settled. -/
def FailsAmong (setup : Setup) (now : ℚ) (entries : List (Str × BurstTx)) (s s' : APRSAdapter) :
    Prop :=
  (s'.queue = s.queue ∧ s'.pending = s.pending) ∧ s'.burstOrder = s.burstOrder ∧
  ∀ d status, status ≠ .pending → s'.core.aprsStatus d = some status →
    s.core.aprsStatus d = some status ∨ status = .failed ∧ ∃ e ∈ entries,
      e.2.GivenUp setup now ∧ ∃ delivery, e.2.delivery = some delivery ∧
        deliveryKey d = deliveryKey delivery

section Polling

variable {entries : List (Str × BurstTx)}

instance : IsPreorder APRSAdapter (FailsAmong setup now entries) where
  refl s := ⟨⟨rfl, rfl⟩, rfl, fun _ _ _ h => .inl h⟩
  trans s s' s'' := by
    rintro ⟨⟨hqueue, hpending⟩, horder, h⟩ ⟨⟨hqueue', hpending'⟩, horder', h'⟩
    refine ⟨⟨hqueue'.trans hqueue, hpending'.trans hpending⟩, horder'.trans horder,
      fun d status hstatus hd => ?_⟩
    rcases h' d status hstatus hd with hd | hfailed
    · exact h d status hstatus hd
    · exact .inr hfailed

/-- Core is left alone. -/
theorem FailsAmong.of_core (hbase : s'.queue = s.queue ∧ s'.pending = s.pending)
    (horder : s'.burstOrder = s.burstOrder) (hcore : s'.core = s.core) :
    FailsAmong setup now entries s s' :=
  ⟨hbase, horder, fun _ _ _ h => .inl (hcore ▸ h)⟩

theorem pollProgress_failsAmong (e : TransactionKey × RxProgress) :
    (pollProgress setup now e).Moves (FailsAmong setup now entries) := by
  have hprogress : ∀ progress : APRSAdapter → OrderedDict TransactionKey RxProgress,
      (modify fun s => { s with rxProgress := progress s } : Adapter Unit).Moves
        (FailsAmong setup now entries) :=
    fun _ => Moves.modify fun _ => .of_core ⟨rfl, rfl⟩ rfl rfl
  refine Moves.ite (Moves.pure _) (Moves.ite ?_ ?_)
  · exact Moves.bind (hprogress _) fun _ => Moves.pure _
  · exact Moves.bind (Moves.ofExcept _) fun _ => Moves.bind (hprogress _) fun _ => Moves.pure _

theorem pollActive_failsAmong {e : Str × BurstTx} (he : e ∈ entries) :
    (pollActive setup now e).Moves (FailsAmong setup now entries) := by
  have hfail : e.2.GivenUp setup now →
      (do failOutbound setup e.1 e.2; return [] : Adapter (List Emission)).Moves
        (FailsAmong setup now entries) := by
    intro hgiven
    refine Moves.bind (fun s => ?_) fun _ => Moves.pure _
    have hfails : (reportDelivery setup (some e.2.order) false e.2.delivery).Yields
        (s.endActive e.1 e.2 false) fun _ s' => FailsAmong setup now entries s s' := by
      refine Yields.mono (endActive_settlement e.1 e.2 false s) fun _ s' hs' => ?_
      obtain ⟨hone, hbase, horder, -⟩ := hs'
      refine ⟨hbase, horder, fun d status hstatus hd => ?_⟩
      exact (hone d status hstatus hd).imp_right fun h => ⟨h.1, e, he, hgiven, h.2⟩
    show Yields (failOutbound setup e.1 e.2) s fun _ s' => FailsAmong setup now entries s s'
    refine Yields.modify_bind (Yields.bind hfails (fun _ s₁ hs₁ => ?_) fun _ _ hs₁ => hs₁)
    exact trans_of (FailsAmong setup now entries) hs₁ (.of_core ⟨rfl, rfl⟩ rfl rfl)
  have hset : ∀ (active : APRSAdapter → OrderedDict Str BurstTx)
      (lastSend : APRSAdapter → OrderedDict Str ℚ) (es : List Emission),
      (do
        modify fun s => { s with burstActive := active s, lastSend := lastSend s }
        return es : Adapter (List Emission)).Moves (FailsAmong setup now entries) :=
    fun _ _ _ => Moves.bind (Moves.modify fun _ => .of_core ⟨rfl, rfl⟩ rfl rfl) fun _ =>
      Moves.pure _
  rw [pollActive]
  split
  · exact Moves.pure _
  · next hdue =>
    refine hfail ?_
    rw [BurstTx.GivenUp, hdue]
    trivial
  · next indices hdue =>
    split
    · next hattempts =>
      refine hfail ?_
      rw [BurstTx.GivenUp, hdue]
      exact hattempts
    · refine Moves.get_bind fun s => Moves.ite ?_ ?_
      · exact hset _ (fun s => s.lastSend) _
      · exact hset _ _ _

theorem pollQueued_failsAmong (tx : BurstTx) :
    (pollQueued setup now tx).Moves (FailsAmong setup now entries) := by
  refine Moves.get_bind fun s => Moves.ite (Moves.pure _) (Moves.ite (Moves.pure _) ?_)
  exact Moves.bind (Moves.modify fun _ => .of_core ⟨rfl, rfl⟩ rfl rfl) fun _ => Moves.pure _

variable (setup now) in
theorem pollEmissions_failsAmong (s : APRSAdapter) :
    (pollEmissions setup now).Yields s fun _ s' =>
      FailsAmong setup now s.burstActive.entries s s' := by
  have hprogress : ∀ s₁, FailsAmong setup now s.burstActive.entries s₁
      ((pollAllProgress setup now).run s₁).2 :=
    Moves.get_bind fun s => Moves.mapM fun e _ => pollProgress_failsAmong e
  have hqueued : (pollAllQueued setup now).Moves (FailsAmong setup now s.burstActive.entries) :=
    Moves.get_bind fun s => Moves.mapM fun tx _ => pollQueued_failsAmong tx
  have htake : takeImmediate.Yields s fun _ s' =>
      FailsAmong setup now s.burstActive.entries s s' ∧ s'.outbound = s.outbound :=
    ⟨.of_core ⟨rfl, rfl⟩ rfl rfl, rfl⟩
  refine Yields.bind htake (fun immediate s₁ hs₁ => ?_) fun _ _ hs₁ => hs₁.1
  refine Yields.bind ((Yields.of_moves hprogress).and (pollAllProgress_yields s₁))
    (fun progress s₂ hs₂ => ?_) fun _ _ hs₂ => trans_of (FailsAmong setup now _) hs₁.1 hs₂.1
  have hfails₂ := trans_of (FailsAmong setup now _) hs₁.1 hs₂.1
  have hactive : s₂.burstActive = s.burstActive :=
    congrArg Outbound.active (hs₂.2.1.trans hs₁.2)
  have hall : (pollAllActive setup now).Yields s₂ fun _ s₃ =>
      FailsAmong setup now s.burstActive.entries s₂ s₃ := by
    refine Yields.get_bind ?_
    rw [hactive]
    exact Yields.of_moves (Moves.mapM fun e he => pollActive_failsAmong he)
  refine Yields.bind hall (fun active s₃ hs₃ => ?_) fun _ _ hs₃ =>
    trans_of (FailsAmong setup now _) hfails₂ hs₃
  have hfails₃ := trans_of (FailsAmong setup now _) hfails₂ hs₃
  refine Yields.bind_of_moves hqueued (fun queued s₄ hs₄ => Yields.modify_bind ?_) fun _ _ hs₄ =>
    trans_of (FailsAmong setup now _) hfails₃ hs₄
  exact trans_of (FailsAmong setup now _) (trans_of (FailsAmong setup now _) hfails₃ hs₄)
    (.of_core ⟨rfl, rfl⟩ rfl rfl)

end Polling

/-- When nothing was queued, everything that is held was held before. -/
theorem Outbound.parcels_of_trace {o o' : Outbound} {log : List Burst} (hpeers : o.PeersMatch)
    (htrace : Trace (Outbound.Move setup) o log o') (hnext : o'.nextOrder = o.nextOrder) :
    ∀ p ∈ o'.parcels, p ∈ o.parcels := by
  have hkept : o'.PeersMatch ∧ o.nextOrder ≤ o'.nextOrder ∧
      (o'.nextOrder = o.nextOrder → ∀ p ∈ o'.parcels, p ∈ o.parcels) := by
    refine htrace.keeps (I := fun o' => o'.PeersMatch ∧ o.nextOrder ≤ o'.nextOrder ∧
      (o'.nextOrder = o.nextOrder → ∀ p ∈ o'.parcels, p ∈ o.parcels))
      ⟨hpeers, le_rfl, fun _ _ h => h⟩ fun o₁ b o₂ h hmove => ?_
    obtain ⟨hpeers₁, hle, hparcels⟩ := h
    refine ⟨hmove.peersMatch hpeers₁, ?_, fun hnext p hp => ?_⟩
    · rcases hmove.parcels hpeers₁ with ⟨heq, -⟩ | ⟨-, -, heq, -⟩ <;> omega
    · rcases hmove.parcels hpeers₁ with ⟨heq, hsub⟩ | ⟨-, -, heq, -⟩
      · exact hparcels (heq.symm.trans hnext) p (hsub.subset hp)
      · omega
  exact hkept.2.2 hnext

/-! ### One call -/

/-- What others do to the core settles no APRS delivery, and what they queue as a delivery is the
message of that delivery. -/
def Call.LeavesOpen : Call → Prop
  | .queueFrame _ frame options => Labels frame options.delivery
  | .core change => ∀ core d status, status ≠ .pending →
      (change core).aprsStatus d = some status → core.aprsStatus d = some status
  | _ => True

/-- The peer acknowledges the transaction. -/
def Acknowledges (s : APRSAdapter) (call : Call) (tx : BurstTx) : Prop :=
  ∃ peer body now, call = .receive peer body now ∧
    parseBurstControl body = some (.ack tx.transactionId) ∧ s.burstActive.get? peer = some tx

/-- `poll` gives up the transaction. -/
def GivesUp (setup : Setup) (s : APRSAdapter) (call : Call) (tx : BurstTx) : Prop :=
  ∃ now, call = .poll now ∧ tx ∈ s.burstActive.values ∧ tx.GivenUp setup now

/-- What a call settles, and what it queues. -/
structure Settlement (setup : Setup) (s : APRSAdapter) (call : Call) (s' : APRSAdapter) : Prop where
  settled : ∀ d status, status ≠ .pending → s'.core.aprsStatus d = some status →
    s.core.aprsStatus d = some status ∨ ∃ tx delivery,
      tx.delivery = some delivery ∧ deliveryKey d = deliveryKey delivery ∧
      (status = .delivered ∧ Acknowledges s call tx ∨ status = .failed ∧ GivesUp setup s call tx)
  held : ∀ p ∈ s'.outbound.parcels, p ∈ s.outbound.parcels ∨ p.Labelled

theorem LeavesOpen.settlement (hbase : s.queue = [] ∧ s.pending = .empty) (h : LeavesOpen s s')
    (call : Call) : Settlement setup s call s' :=
  ⟨fun d status hstatus hd => .inl ((h hbase).2.1 d status hstatus hd), (h hbase).2.2⟩

theorem step_settlement (hsound : s.outbound.Sound setup) {call : Call} (hcall : call.LeavesOpen) :
    Settlement setup s call (step setup s call) := by
  have hbase : s.queue = [] ∧ s.pending = .empty := hsound.base
  have hquiet : (call.method setup).Moves LeavesOpen →
      Settlement setup s call (step setup s call) := fun h => (h s).settlement hbase call
  cases call with
  | receive peer body now =>
    cases hcontrol : parseBurstControl body with
    | none => exact hquiet (Moves.bind (receive_leavesOpen hcontrol) fun _ => Moves.pure _)
    | some control =>
      rw [step_receive]
      rcases receive_of_control hcontrol with hrun | hrun
      · rw [hrun]
        exact (refl_of LeavesOpen s).settlement hbase _
      rw [hrun]
      rcases receiveControl_settlement control s with hopen | ⟨tx, rfl, hactive, hone, -, hparcels⟩
      · exact hopen.settlement hbase _
      refine ⟨fun d status hstatus hd => ?_, fun p hp => .inl (hparcels p hp)⟩
      refine (hone d status hstatus hd).imp_right ?_
      rintro ⟨rfl, delivery, hdelivery, hkey⟩
      exact ⟨tx, delivery, hdelivery, hkey, .inl ⟨rfl, peer, body, now, rfl, hcontrol, hactive⟩⟩
  | poll now =>
    obtain ⟨retries, starts, htrace, -⟩ := step_trace hsound (.poll now)
    rw [step_poll] at htrace ⊢
    obtain ⟨-, horder, hfails⟩ := pollEmissions_failsAmong setup now s
    refine ⟨fun d status hstatus hd => (hfails d status hstatus hd).imp_right ?_, fun p hp =>
      .inl (Outbound.parcels_of_trace hsound.peers htrace horder p hp)⟩
    rintro ⟨rfl, e, he, hgiven, delivery, hdelivery, hkey⟩
    exact ⟨e.2, delivery, hdelivery, hkey,
      .inr ⟨rfl, now, rfl, List.mem_map_of_mem he, hgiven⟩⟩
  | queueFrame peer frame options =>
    exact hquiet (Moves.bind (queueFrame_leavesOpen hcall) fun _ => Moves.pure _)
  | deliverMessage message endpoint =>
    exact hquiet (Moves.bind (deliverMessage_leavesOpen _ _) fun _ => Moves.pure _)
  | connectionLost =>
    rw [step_connectionLost hbase.1 hbase.2]
    have hcleared : LeavesOpen s { s with immediate := [] } := .of_outbound rfl rfl
    exact hcleared.settlement hbase _
  | core change =>
    refine hquiet (Moves.bind (Moves.modify fun s hbase => ⟨hbase, ?_, fun _ h => .inl h⟩) fun _ =>
      Moves.pure _)
    exact fun d status hstatus h => hcall s.core d status hstatus h

/-! ### Runs -/

section Runs

variable {core : CoreState} {calls : List Call}

variable (setup core) in
/-- Everything that is held carries the message that it delivers. -/
theorem runState_labelled (hcalls : ∀ call ∈ calls, call.LeavesOpen) :
    ∀ i ≤ calls.length, ∀ p ∈ (runState setup core calls i).outbound.parcels, p.Labelled := by
  intro i
  induction i with
  | zero => exact fun _ p hp => absurd hp List.not_mem_nil
  | succ i ih =>
    intro hi p hp
    rw [runState, stateAt_succ hi] at hp
    have hbefore := Nat.le_of_succ_le hi
    have hsettlement := step_settlement (runState_sound setup core calls i hbefore)
      (hcalls _ (List.getElem_mem hi))
    exact (hsettlement.held p hp).elim (ih hbefore p) id

/-- The transaction carries the message with this number of this mailbox. -/
def BurstTx.CarriesMessage (recipient : Str) (sequence : ℕ) (tx : BurstTx) : Prop :=
  ∃ message unsolicited frame, encodeFrame (.message message) unsolicited = .ok frame ∧
    fragmentFrameV2 frame tx.transactionId = .ok tx.fragments ∧
    message.recipient = recipient ∧ message.sequence = sequence

theorem valid_of_encodeFrame {message : Message} {unsolicited : Bool} {frame : Bytes}
    (h : encodeFrame (.message message) unsolicited = .ok frame) : message.Valid := by
  have hobj : ∀ value, ProtocolObject.message message ≠ .getMessage value := fun _ h => by cases h
  obtain ⟨payload, hpayload, hlen, -⟩ := encodeFrame_eq_ok hobj h
  exact encodable_message.mp ((encodable_iff hobj).mpr ⟨payload, hpayload, hlen⟩)

theorem BurstTx.carriesMessage_of_labelled {tx : BurstTx} (h : tx.parcel.Labelled)
    {delivery : Delivery} (hdelivery : tx.delivery = some delivery) {recipient : Str}
    {sequence : ℕ} (hkey : deliveryKey (recipient, (sequence : ℤ)) = deliveryKey delivery) :
    tx.CarriesMessage recipient sequence := by
  obtain ⟨message, unsolicited, frame, hencode, hfragments, rfl⟩ := h delivery hdelivery
  have hvalid := (valid_of_encodeFrame hencode).sequence
  have hsame := deliveryKey_inj (Int.natCast_nonneg sequence) (le_trans (by decide) hvalid.1) hkey
  obtain ⟨hrecipient, hsequence⟩ := Prod.mk.inj hsame
  exact ⟨message, unsolicited, frame, hencode, hfragments, hrecipient.symm, hsequence.symm⟩

/-- **A delivery is settled by the end of the transaction that carries its message.** It becomes
delivered only when the peer acknowledges that transaction, and all its fragments were sent to the
peer in one burst before. It becomes failed only when `poll` gives it up. The frames that others
queue as deliveries are the messages that they are said to deliver. -/
theorem deliveries_settled (setup : Setup) (core : CoreState) (calls : List Call)
    (hcalls : ∀ call ∈ calls, call.LeavesOpen) (recipient : Str) (sequence : ℕ) {i : ℕ}
    (hi : i < calls.length) :
    ((runState setup core calls (i + 1)).core.aprsStatus (recipient, sequence) = some .delivered →
      (runState setup core calls i).core.aprsStatus (recipient, sequence) ≠ some .delivered →
      AtCall setup core calls i fun s call => ∃ tx, Acknowledges s call tx ∧
        tx.CarriesMessage recipient sequence ∧
        ∃ b ∈ sentBursts setup core calls i, b.tx.parcel = tx.parcel ∧ b.packets = tx.packets) ∧
    ((runState setup core calls (i + 1)).core.aprsStatus (recipient, sequence) = some .failed →
      (runState setup core calls i).core.aprsStatus (recipient, sequence) ≠ some .failed →
      AtCall setup core calls i fun s call => ∃ tx, GivesUp setup s call tx ∧
        tx.CarriesMessage recipient sequence) := by
  have hsound := runState_sound setup core calls i hi.le
  have hlabelled := runState_labelled setup core hcalls i hi.le
  have hsettlement := step_settlement hsound (hcalls _ (List.getElem_mem hi))
  have hsettled := fun status => hsettlement.settled (recipient, (sequence : ℤ)) status
  have hcarries : ∀ {tx : BurstTx} {delivery : Delivery},
      tx ∈ (runState setup core calls i).burstActive.values → tx.delivery = some delivery →
      deliveryKey (recipient, (sequence : ℤ)) = deliveryKey delivery →
      tx.CarriesMessage recipient sequence := fun hactive hdelivery hkey =>
    BurstTx.carriesMessage_of_labelled (hlabelled _ (List.mem_map_of_mem
      (Outbound.mem_held.mpr (.inr hactive)))) hdelivery hkey
  rw [show runState setup core calls (i + 1) = step setup (runState setup core calls i) calls[i]
    from stateAt_succ hi]
  constructor
  · intro hnow hbefore
    obtain ⟨tx, delivery, hdelivery, hkey, hend⟩ :=
      (hsettled .delivered (by decide) hnow).resolve_left hbefore
    rcases hend with ⟨-, hack⟩ | ⟨hfailed, -⟩
    swap
    · cases hfailed
    obtain ⟨peer, body, now, hcall, hcontrol, hactive⟩ := hack
    have hvalue : tx ∈ (runState setup core calls i).outbound.active.values :=
      Outbound.active_mem_values hactive
    refine ⟨hi, tx, ⟨peer, body, now, hcall, hcontrol, hactive⟩, hcarries hvalue hdelivery hkey, ?_⟩
    -- What is active was started, and no first burst is lost.
    obtain ⟨log, h, hshows⟩ := runState_inOrder setup core calls i hi.le
    obtain ⟨b, hb, horder, hzero⟩ := h.grouped.disciplined.active_begun tx hvalue
    have hparcel := h.grouped.parcel_eq b hb tx (Outbound.mem_held.mpr (.inr hvalue)) horder.symm
    refine ⟨b, hshows.first b hb hzero, hparcel.symm, ?_⟩
    rw [h.grouped.disciplined.whole b hb hzero]
    exact (congrArg Parcel.packets hparcel).symm
  · intro hnow hbefore
    obtain ⟨tx, delivery, hdelivery, hkey, hend⟩ :=
      (hsettled .failed (by decide) hnow).resolve_left hbefore
    rcases hend with ⟨hdelivered, -⟩ | ⟨-, hgiven⟩
    · cases hdelivered
    obtain ⟨now, hcall, hvalue, hgivenUp⟩ := hgiven
    exact ⟨hi, tx, ⟨now, hcall, hvalue, hgivenUp⟩, hcarries hvalue hdelivery hkey⟩

/-- A message for `EA2DEF` is accepted and sent, and `EA2DEF` acknowledges it. -/
def sendsThenAcks : List Call :=
  readsThenAsks.take 2 ++ [.poll 2, .receive (str "EA2DEF") (str "A2!!") 3]

theorem deliveries_settled_delivered :
    (runState withoutRouter freshCore sendsThenAcks 4).core.aprsStatus (str "EA2DEF", (1 : ℕ)) =
        some .delivered ∧
      AtCall withoutRouter freshCore sendsThenAcks 3 fun s call => ∃ tx, Acknowledges s call tx ∧
        tx.CarriesMessage (str "EA2DEF") 1 ∧
        ∃ b ∈ sentBursts withoutRouter freshCore sendsThenAcks 3,
          b.tx.parcel = tx.parcel ∧ b.packets = tx.packets := by
  have hcalls : ∀ call ∈ sendsThenAcks, call.LeavesOpen := by
    intro call hcall
    simp only [sendsThenAcks, readsThenAsks, List.take, List.mem_append, List.mem_cons,
      List.not_mem_nil, or_false] at hcall
    rcases hcall with (rfl | rfl) | rfl | rfl <;> trivial
  have hnow : (runState withoutRouter freshCore sendsThenAcks 4).core.aprsStatus
      (str "EA2DEF", (1 : ℕ)) = some .delivered := by decide +kernel
  have hbefore : (runState withoutRouter freshCore sendsThenAcks 3).core.aprsStatus
      (str "EA2DEF", (1 : ℕ)) ≠ some .delivered := by decide +kernel
  have hlt : 3 < sendsThenAcks.length := by decide
  exact ⟨hnow, (deliveries_settled withoutRouter freshCore sendsThenAcks hcalls (str "EA2DEF") 1
    hlt).1 hnow hbefore⟩

end Runs

end OpenQSP
