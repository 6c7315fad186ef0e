import OpenQSP.Aprs.Carriers
import OpenQSP.Aprs.Repair

/-!
# Orphaned deliveries

As long as a delivery is pending, a transaction that carries its message should wait or be active. A
transaction that is acknowledged or given up settles its delivery. One that is superseded does not:
unless another transaction carries the same message, its delivery stays pending for ever.

## Main definitions

* `NoOrphans` — every pending delivery is carried
* `Settles` — a call settles what it ends
* `Spares` — a call supersedes no last carrier

## Main results

* `step_noOrphans` — one call
* **`runState_noOrphans`**
-/

namespace OpenQSP

open APRSAdapter Method Py

variable {setup : Setup} {peer : Str} {key : TransactionKey} {s s' t : APRSAdapter} {now : ℚ}
    {d : Delivery}

/-- Every pending delivery is carried. -/
def NoOrphans (setup : Setup) (s : APRSAdapter) : Prop :=
  ∀ d, s.core.Pending setup.stores d → s.outbound.Delivers d

/-- What is pending after the call is carried, or it was an orphan before. -/
def Settles (setup : Setup) (s s' : APRSAdapter) : Prop :=
  ∀ d, s'.core.Pending setup.stores d →
    s'.outbound.Delivers d ∨ s.core.Pending setup.stores d ∧ ¬s.outbound.Delivers d

instance : IsPreorder APRSAdapter (Settles setup) where
  refl s d hd := (em (s.outbound.Delivers d)).imp_right fun h => ⟨hd, h⟩
  trans s s' s'' h h' d hd := by
    rcases h' d hd with hcarried | ⟨hpending, hnot⟩
    · exact .inl hcarried
    · exact .inr ((h d hpending).resolve_left hnot)

theorem Settles.noOrphans (h : Settles setup s s') (hno : NoOrphans setup s) : NoOrphans setup s' :=
  fun d hd =>
  (h d hd).resolve_right fun ⟨hpending, hnot⟩ => hnot (hno d hpending)

/-- Nothing was done to the transactions or to the deliveries. -/
theorem Settles.of_ledger (h : Keeps APRSAdapter.ledger s s') : Settles setup s s' := by
  have hadds : Adds setup (fun _ => True) s s' := .of_ledger h
  intro d hd
  by_cases hcarried : s.outbound.Delivers d
  · exact .inl (hadds.delivers hcarried)
  · exact .inr ⟨hd.congr (Prod.mk.inj h).2.symm, hcarried⟩

/-- The transactions that are held carry the same. -/
theorem Settles.of_parcels (hparcels : s'.outbound.parcels.Perm s.outbound.parcels)
    (hcore : s'.core = s.core) :
    Settles setup s s' := by
  intro d hd
  rw [hcore] at hd
  rcases refl_of (Settles setup) s d hd with hcarried | horphan
  · rw [Outbound.delivers_iff] at hcarried ⊢
    obtain ⟨p, hp, hdelivery⟩ := hcarried
    exact .inl ⟨p, hparcels.mem_iff.mpr hp, hdelivery⟩
  · exact .inr horphan

theorem Settles.adjusted {tx : BurstTx} (hactive : s.burstActive.get? peer = some tx)
    (tx' : BurstTx)
    (hparcel : tx'.parcel = tx.parcel) (lastSend : OrderedDict Str ℚ) :
    Settles setup s { s with burstActive := s.burstActive.set peer tx', lastSend } := by
  refine .of_parcels (.of_eq ?_) rfl
  have hout : s.outbound.active.get? peer = some tx := hactive
  exact Outbound.parcels_set_active hout hparcel lastSend

theorem Settles.moved {tx : BurstTx} (hqueued : tx ∈ s.burstQueue)
    (hidle : tx.peer ∉ s.burstActive.keys)
    (tx' : BurstTx) (hparcel : tx'.parcel = tx.parcel) (lastSend : OrderedDict Str ℚ) :
    Settles setup s { s with
      burstQueue := s.burstQueue.erase tx
      burstActive := s.burstActive.set tx.peer tx'
      lastSend } := by
  refine .of_parcels ?_ rfl
  have hout : tx ∈ s.outbound.queue ∧ tx.peer ∉ s.outbound.active.keys := ⟨hqueued, hidle⟩
  exact Outbound.parcels_start hout.1 hout.2 hparcel lastSend

/-! ### Ending a transaction -/

/-- The transaction of a peer ends, and its delivery is not pending any more. -/
theorem Settles.of_end {tx : BurstTx} (hactive : s.burstActive.get? peer = some tx)
    (hqueue' : s'.burstQueue = s.burstQueue) (hactive' : s'.burstActive = s.burstActive.erase peer)
    (hpending : ∀ d, s'.core.Pending setup.stores d → s.core.Pending setup.stores d ∧
      tx.delivery ≠ some d) :
    Settles setup s s' := by
  intro d hd
  obtain ⟨hbefore, hne⟩ := hpending d hd
  rcases refl_of (Settles setup) s d hbefore with ⟨tx', htx', hdelivery⟩ | horphan
  · refine .inl ⟨tx', ?_, hdelivery⟩
    rcases List.mem_append.mp htx' with htx' | htx'
    · exact List.mem_append_left _ (show tx' ∈ s'.burstQueue from hqueue' ▸ htx')
    · have hother := (OrderedDict.values_perm_erase hactive).mem_iff.mp htx'
      rcases List.mem_cons.mp hother with rfl | hother
      · exact absurd hdelivery hne
      · exact List.mem_append_right _ (show tx' ∈ s'.burstActive.values from hactive' ▸ hother)
  · exact .inr horphan

/-- Reporting a delivery as delivered or as failed. -/
theorem reportDelivery_pending (order : Option ℕ) (delivered : Bool) (delivery : Option Delivery)
    (s : APRSAdapter) :
    (reportDelivery setup order delivered delivery).Yields s fun outcome s' =>
      (s'.burstQueue = s.burstQueue ∧ s'.burstActive = s.burstActive) ∧
      (outcome = .ok () →
      ∀ d, s'.core.Pending setup.stores d → s.core.Pending setup.stores d ∧ delivery ≠ some d) := by
  cases delivery with
  | none => exact ⟨⟨rfl, rfl⟩, fun _ d hd => ⟨hd, nofun⟩⟩
  | some delivery =>
    refine ⟨⟨rfl, rfl⟩, fun houtcome d hd => ?_⟩
    cases delivered with
    | true =>
      obtain ⟨hbefore, hne⟩ := CoreState.markAprsDelivered_pending hd
      exact ⟨hbefore, fun heq => hne houtcome (Option.some.inj heq).symm⟩
    | false =>
      obtain ⟨hbefore, hne⟩ := CoreState.markAprsFailed_pending hd
      exact ⟨hbefore, fun heq => hne houtcome (Option.some.inj heq).symm⟩

theorem completeOutbound_settles {tx : BurstTx} (hactive : s.burstActive.get? peer = some tx) :
    (completeOutbound setup peer tx).Yields s fun outcome s' => outcome = .ok () →
      Settles setup s s' := by
  refine Yields.modify_bind (Yields.mono (reportDelivery_pending _ true tx.delivery _)
    fun outcome s' hs' houtcome => ?_)
  obtain ⟨⟨hqueue, hactive'⟩, hpending⟩ := hs'
  exact .of_end hactive hqueue hactive' (hpending houtcome)

theorem failOutbound_settles {tx : BurstTx} (hactive : s.burstActive.get? peer = some tx) :
    (failOutbound setup peer tx).Yields s fun outcome s' => outcome = .ok () →
      Settles setup s s' := by
  refine Yields.modify_bind (Yields.bind (reportDelivery_pending _ false tx.delivery _)
    (fun _ s' hs' => ?_) fun _ _ _ => nofun)
  obtain ⟨⟨hqueue, hactive'⟩, hpending⟩ := hs'
  exact fun _ => .of_end hactive hqueue hactive' (hpending rfl)

/-! ### Controls -/

theorem refreshAprsPresence_keepsLedger : (refreshAprsPresence setup peer).Moves
    (Keeps APRSAdapter.ledger) :=
  fun s => Prod.ext (congrArg (fun o : Outbound => (o.queue, o.active, o.nextOrder))
    (refreshAprsPresence_keepsOutbound s)) (congrArg Tables.deliveries
      (refreshAprsPresence_yields s).2.1)

theorem receiveControl_settles (control : BurstControl) (s : APRSAdapter) :
    (receiveControl setup peer control).Yields s fun outcome s' =>
      ∀ disposition, outcome = .ok disposition → Settles setup s s' := by
  have hself : Settles setup s s := refl_of _ s
  have hraised : ∀ (e : PyError) (s' : APRSAdapter) (disposition : Disposition),
      Except.error e = .ok disposition → Settles setup s s' := by
    intro _ _ _ h
    cases h
  rw [receiveControl]
  refine Yields.get_bind ?_
  cases hactive : s.burstActive.get? peer with
  | none => exact fun _ _ => hself
  | some tx =>
    have hrefreshed : ∀ s₁ : APRSAdapter, Keeps APRSAdapter.ledger s s₁ →
      s₁.burstActive.get? peer = some tx :=
      fun s₁ hs₁ => (bursts_inj (Prod.mk.inj hs₁).1).2.1.symm ▸ hactive
    cases control with
    | ack transactionId =>
      dsimp only
      split
      · exact fun _ _ => hself
      · refine Yields.bind_of_moves refreshAprsPresence_keepsLedger (fun _ s₁ hs₁ => ?_)
          fun e s' _ => hraised e s'
        refine Yields.bind (completeOutbound_settles (hrefreshed s₁ hs₁)) (fun _ s₂ hs₂ _ _ => ?_)
          fun e s' _ => hraised e s'
        exact trans_of (Settles setup) (.of_ledger hs₁) (hs₂ rfl)
    | missing transactionId indices =>
      dsimp only
      split
      · exact fun _ _ => hself
      split
      · exact fun _ _ => hself
      · refine Yields.bind_of_moves refreshAprsPresence_keepsLedger (fun _ s₁ hs₁ => ?_)
          fun e s' _ => hraised e s'
        have hadjusted : Settles setup s₁ { s₁ with
            burstActive := s₁.burstActive.set peer (tx.repaired indices) } :=
          .adjusted (hrefreshed s₁ hs₁) (tx.repaired indices) rfl s₁.lastSend
        exact fun _ _ => trans_of (Settles setup) (.of_ledger hs₁) hadjusted

/-- What is no fragment is a control, or it is ignored. -/
theorem receive_unparsed_settles {body : Str} (h : ∀ result, parsePacket peer body ≠ .ok result)
    (hpending : s.pending = .empty) :
    (receive setup peer body now).Yields s fun outcome s' =>
      ∀ disposition, outcome = .ok disposition → Settles setup s s' := by
  have hself : ∀ {value : Disposition}, (pure value : Adapter Disposition).Yields s
    fun outcome s' =>
      ∀ disposition, outcome = .ok disposition → Settles setup s s' := fun _ _ => refl_of _ s
  rcases hparse : parsePacket peer body with e | result
  swap
  · exact absurd hparse (h result)
  rw [receive, hparse]
  dsimp only
  rw [if_pos (isUnparsable_of_carriage (parsePacket_raises peer body e hparse)), receiveBurst]
  cases hpeer : validatePeer peer with
  | error e' =>
    dsimp only
    rw [if_pos (validatePeer_raises peer e' hpeer)]
    exact hself
  | ok peer' =>
    obtain rfl := validatePeer_eq_ok hpeer
    dsimp only
    cases hcontrol : parseBurstControl body with
    | some control => exact receiveControl_settles control s
    | none =>
      rcases hfragment : parseFragment body with e' | fragment
      swap
      · rw [parsePacket, hpeer, Py.ok_bind, hfragment] at hparse
        cases hparse
      dsimp only
      rw [if_pos (isUnparsable_of_carriage (parseFragment_raises body e' hfragment)), receiveCommit,
        hpeer]
      dsimp only
      split
      · rw [receiveLegacyAck]
        refine Yields.get_bind ?_
        rw [hpending]
        exact hself
      · rw [confirmInbound_accepted, when_pure, pure_bind, hfragment]
        dsimp only
        rw [if_pos (isUnparsable_of_carriage (parseFragment_raises body e' hfragment))]
        exact Yields.bind_of_moves (Moves.when (confirmInbound_keepsLedger _ _))
          (fun _ s₁ hs₁ _ _ => .of_ledger hs₁) fun _ _ _ _ h => by cases h

/-! ### Polling -/

theorem pollProgress_keepsLedger (e : TransactionKey × RxProgress) :
    (pollProgress setup now e).Moves (Keeps APRSAdapter.ledger) := by
  refine Moves.ite (Moves.pure _) (Moves.ite ?_ ?_)
  · exact Moves.bind (Moves.modify fun _ => rfl) fun _ => Moves.pure _
  · exact Moves.bind (Moves.ofExcept _) fun _ =>
      Moves.bind (Moves.modify fun _ => rfl) fun _ => Moves.pure _

theorem pollActive_settles {e : Str × BurstTx} (hactive : s.burstActive.get? e.1 = some e.2) :
    (pollActive setup now e).Yields s fun outcome s' => ∀ es, outcome = .ok es →
      Settles setup s s' := by
  have hfail : (do failOutbound setup e.1 e.2; return [] : Adapter (List Emission)).Yields s
      fun outcome s' => ∀ es, outcome = .ok es → Settles setup s s' :=
    Yields.bind (failOutbound_settles hactive) (fun _ _ hs' _ _ => hs' rfl) fun _ _ _ => nofun
  rw [pollActive]
  split
  · exact fun _ _ => refl_of (Settles setup) s
  · exact hfail
  · split
    · exact hfail
    refine Yields.get_bind ?_
    split
    · exact fun _ _ => .adjusted hactive (e.2.deferred now) rfl s.lastSend
    · exact fun _ _ => .adjusted hactive (e.2.retried _) rfl (s.lastSend.set e.1 now)

theorem pollAllActive_settles (s : APRSAdapter) :
    (pollAllActive setup now).Yields s fun outcome s' => ∀ as, outcome = .ok as →
      Settles setup s s' := by
  -- The entries that are left are still active.
  refine Yields.get_bind (Yields.mono (Yields.mapM
    (I := fun _ l s₁ => Settles setup s s₁ ∧ (∀ e ∈ l, s₁.burstActive.get? e.1 = some e.2) ∧
      (l.map Prod.fst).Nodup)
    (E := fun _ _ => True) (fun as e l s₁ hI => ?_) s.burstActive.entries [] s ?_)
      fun outcome s' hs' as has => ?_)
  · obtain ⟨hsettles, hactive, hnodup⟩ := hI
    have hget := hactive e List.mem_cons_self
    refine Yields.mono ((pollActive_settles hget).and (pollActive_yields hget))
      fun outcome s₂ hs₂ => ?_
    obtain ⟨hsettles₂, hpolled⟩ := hs₂
    refine ⟨fun es hes => ⟨trans_of (Settles setup) hsettles (hsettles₂ es hes), fun e' he' => ?_,
      (List.nodup_cons.mp hnodup).2⟩, fun _ _ => trivial⟩
    have hne : e'.1 ≠ e.1 := fun heq => (List.nodup_cons.mp hnodup).1
      (heq ▸ List.mem_map_of_mem he')
    exact (hpolled.others e'.1 hne).trans (hactive e' (List.mem_cons_of_mem _ he'))
  · exact ⟨refl_of _ s, fun e he => OrderedDict.get?_eq_some_iff.mpr he, s.burstActive.nodup_keys⟩
  · exact (hs'.1 as has).1

theorem pollAllQueued_settles (hnodup : s.burstQueue.Nodup) :
    (pollAllQueued setup now).Yields s fun outcome s' => ∀ as, outcome = .ok as →
      Settles setup s s' := by
  -- The candidates that are left are still queued.
  refine Yields.get_bind (Yields.mono (Yields.mapM
    (I := fun _ l s₁ => Settles setup s s₁ ∧ (∀ tx ∈ l, tx ∈ s₁.burstQueue) ∧ l.Nodup)
    (E := fun _ _ => True) (fun as tx l s₁ hI => ?_) (candidates s.burstQueue) [] s ?_)
      fun outcome s' hs' as has => ?_)
  · obtain ⟨hsettles, hqueued, hnodup⟩ := hI
    have htx := hqueued tx List.mem_cons_self
    refine Yields.mono (pollQueued_yields htx) fun outcome s₂ hs₂ =>
      ⟨fun es hes => ?_, fun _ _ => trivial⟩
    rcases hs₂ with ⟨-, rfl, -⟩ | ⟨-, hidle, -, -, rfl⟩
    · exact ⟨hsettles, fun tx' htx' => hqueued tx' (List.mem_cons_of_mem _ htx'),
        (List.nodup_cons.mp hnodup).2⟩
    · refine ⟨trans_of (Settles setup) hsettles (.moved htx hidle (tx.started _) rfl _),
        fun tx' htx' => ?_,
        (List.nodup_cons.mp hnodup).2⟩
      have hother : tx' ≠ tx := ne_of_mem_of_not_mem htx' (List.nodup_cons.mp hnodup).1
      exact (List.mem_erase_of_ne hother).mpr (hqueued tx' (List.mem_cons_of_mem _ htx'))
  · have hperm := candidates_perm s.burstQueue
    exact ⟨refl_of _ s, fun tx htx => hperm.mem_iff.mp htx, hperm.nodup_iff.mpr hnodup⟩
  · exact (hs'.1 as has).1

theorem pollEmissions_settles (hsound : s.outbound.Sound setup) :
    (pollEmissions setup now).Yields s fun outcome s' => ∀ es, outcome = .ok es →
      Settles setup s s' := by
  have htake : takeImmediate.Moves (Keeps APRSAdapter.ledger) := fun _ => rfl
  have hprogress : (pollAllProgress setup now).Moves (Keeps APRSAdapter.ledger) :=
    Moves.get_bind fun s => Moves.mapM fun e _ => pollProgress_keepsLedger e
  refine Yields.bind_of_moves htake (fun immediate s₁ hs₁ => ?_) fun _ _ _ => nofun
  refine Yields.bind_of_moves hprogress (fun progress s₂ hs₂ => ?_) fun _ _ _ => nofun
  have hs₂ : Keeps APRSAdapter.ledger s s₂ := trans_of _ hs₁ hs₂
  refine Yields.bind ((pollAllActive_settles s₂).and (pollAllActive_yields s₂))
    (fun active s₃ hs₃ => ?_)
    fun _ _ _ => nofun
  obtain ⟨hsettles₃, hqueue₃, -⟩ := hs₃
  have hnodup : s₃.burstQueue.Nodup := by
    rw [hqueue₃, (bursts_inj (Prod.mk.inj hs₂).1).1]
    exact hsound.nodup_queue
  refine Yields.bind (pollAllQueued_settles hnodup) (fun queued s₄ hs₄ => ?_) fun _ _ _ => nofun
  refine Yields.modify_bind fun _ _ => ?_
  have hsettles₄ : Settles setup s s₄ :=
    trans_of (Settles setup) (trans_of (Settles setup) (.of_ledger hs₂) (hsettles₃ active rfl))
      (hs₄ queued rfl)
  exact trans_of (Settles setup) hsettles₄ (.of_ledger rfl)

/-! ### Losing the connection -/

/-- Nothing of the base class waits, so that nothing is given up. -/
theorem connectionLost_keepsLedger (hqueue : s.queue = []) (hpending : s.pending = .empty) :
    (connectionLost setup).Yields s fun _ s' => Keeps APRSAdapter.ledger s s' := by
  refine Yields.get_bind (Yields.modify_bind ?_)
  rw [hqueue, hpending]
  exact rfl

/-! ### What a call supersedes -/

/-- The deliveries of the messages of an answer. -/
def deliveriesOf (responses : List ProtocolObject) : Set Delivery :=
  {d | ∃ message, .message message ∈ responses ∧ d = (message.recipient, message.sequence)}

/-- What is left when the call has superseded transactions, and the deliveries that it then
queues. -/
inductive SupersededBy (setup : Setup) (s : APRSAdapter) : Call → APRSAdapter → Set Delivery → Prop
  | proactive (message : Message) (endpoint : Str) :
      SupersededBy setup s (.deliverMessage message endpoint) (deliverDrops message endpoint s)
        {(message.recipient, message.sequence)}
  | request {peer body : Str} {now : ℚ} {fragment : APRSFragment} {frame : Bytes}
      {reassembly : Reassembler}
      {request : ProtocolObject} {callsign : Str} {responses : List ProtocolObject}
        {events : List Message}
      {tables : Tables} (parsed : parsePacket peer body = .ok (peer, fragment))
      (new : s.inbound.cached setup (peer, fragment.transactionId) now = none)
      (complete : s.reassembly.add setup.config.reassembly peer fragment now =
        (.ok (some frame), reassembly))
      (decoded : decodeFrame frame = .ok request) (isRequest : request.isRequest = true)
      (named : normalizeCallsign peer "APRS source" = .ok callsign)
      (dispatched : (dispatch setup.stores s.core.clock callsign request).run s.core.tables =
        (.ok (responses, events), tables)) :
      SupersededBy setup s (.receive peer body now)
        (requestDrops setup (peer, fragment.transactionId) request responses events s)
          (deliveriesOf responses)
  /-- The compact result of a stored message replaces its response. -/
  | replayed {peer body : Str} {now : ℚ} {fragment : APRSFragment} {replay : Replay}
      (parsed : parsePacket peer body = .ok (peer, fragment))
      (found : s.inbound.cached setup (peer, fragment.transactionId) now = some replay)
      (stored : replay.isStoredSend = .ok true) :
      SupersededBy setup s (.receive peer body now)
        (s.dropBatches peer fun tx => tx.responseBatch = some (peer, fragment.transactionId)) ∅

/-- The call supersedes no last carrier of a pending delivery, unless it queues the message
again. -/
def Spares (setup : Setup) (s : APRSAdapter) (call : Call) : Prop :=
  ∀ t queued, SupersededBy setup s call t queued →
    ∀ d, s.core.Pending setup.stores d → t.outbound.Delivers d ∨ d ∈ queued

/-- Where nothing is pending, nothing can be orphaned. -/
theorem spares_of_not_pending (h : ∀ d, ¬s.core.Pending setup.stores d) (call : Call) :
    Spares setup s call :=
  fun _ _ _ d hd => absurd hd (h d)

/-- A call of `receive`, `poll`, `deliver_message` or `connection_lost`; what others do to the core
in between makes no APRS delivery pending. -/
def Call.LeavesDeliveries (setup : Setup) : Call → Prop
  | .queueFrame _ _ _ => False
  | .core change => ∀ core d, (change core).Pending setup.stores d → core.Pending setup.stores d
  | _ => True

/-! ### One call -/

theorem requestDrops_core (request : ProtocolObject) (responses : List ProtocolObject)
    (events : List Message)
    (s : APRSAdapter) : (requestDrops setup key request responses events s).core = s.core := by
  have hrouted : (events.foldl (routeDrops setup) s).core = s.core := by
    induction events generalizing s with
    | nil => rfl
    | cons event events ih => exact (ih _).trans (routeDrops_core event)
  rw [requestDrops]
  split <;> exact hrouted

/-- The answer to a `SEND_MESSAGE` holds no message. -/
theorem deliveriesOf_send {stores : Stores} {clock : ℤ} {callsign : Str} {request : ProtocolObject}
    {responses : List ProtocolObject} {events : List Message} {tables tables' : Tables}
    (hsend : request.isSendMessage = true)
    (h : (dispatch stores clock callsign request).run tables = (.ok (responses, events), tables')) :
    deliveriesOf responses = ∅ := by
  refine Set.eq_empty_iff_forall_notMem.mpr ?_
  rintro d ⟨message, hmessage, -⟩
  cases (dispatch_cases h).1 with
  | message => cases hsend
  | messages => cases hsend
  | _ => simp at hmessage

/-- What is not superseded is carried on, and so is what becomes pending. -/
theorem Covers.noOrphans (h : Covers setup t s') (hcore : t.core = s.core)
    (hspares : ∀ d, s.core.Pending setup.stores d → t.outbound.Delivers d ∨
      s'.outbound.Delivers d) :
    NoOrphans setup s' := by
  intro d hd
  rcases h.2 d hd with hpending | hcarried
  · rw [hcore] at hpending
    exact (hspares d hpending).elim (h.1 d) id
  · exact hcarried

theorem receive_noOrphans {body : Str} (hsound : s.outbound.Sound setup) (hno : NoOrphans setup s)
    (hspares : Spares setup s (.receive peer body now)) :
    (receive setup peer body now).Yields s fun outcome s' =>
      ∀ disposition, outcome = .ok disposition → NoOrphans setup s' := by
  rcases hparse : parsePacket peer body with e | ⟨peer', fragment⟩
  · refine Yields.mono (receive_unparsed_settles (fun result hok => ?_) hsound.base.2)
      fun _ _ hs' disposition hok =>
      (hs' disposition hok).noOrphans hno
    exact nomatch hparse.symm.trans hok
  obtain ⟨rfl, -, -⟩ := parsePacket_eq_ok hparse
  cases hcached : s.inbound.cached setup (peer', fragment.transactionId) now with
  | some replay =>
    refine Yields.mono (receive_hit_covers hparse hcached) fun _ s' hs' _ _ => ?_
    rcases hs' with hcovers | ⟨hstored, hcovers⟩
    · exact hcovers.noOrphans rfl fun d hd => .inl (hno d hd)
    · exact hcovers.noOrphans rfl fun d hd =>
        (hspares _ _ (.replayed hparse hcached hstored) d hd).imp_right nofun
  | none =>
    refine Yields.mono (receive_miss_covers hparse hsound.base.1 hsound.base.2 hcached)
      fun _ s' hs' disposition hok => ?_
    rcases hs' disposition hok with hcovers | ⟨frame, reassembly, hadd, request, responses, events,
      s₁, hserves, hleaves⟩
    · exact hcovers.noOrphans rfl fun d hd => .inl (hno d hd)
    · obtain ⟨callsign, tables, hcallsign, hdispatch⟩ := hserves.dispatched
      refine hleaves.covers.noOrphans (requestDrops_core _ _ _ s) fun d hd => ?_
      have hsuperseded := SupersededBy.request hparse hcached hadd hserves.decoded hserves.isRequest
        hcallsign hdispatch
      refine (hspares _ _ hsuperseded d hd).imp_right fun hqueued => ?_
      cases hsend : request.isSendMessage with
      | true =>
        rw [deliveriesOf_send hsend hdispatch] at hqueued
        exact absurd hqueued (Set.notMem_empty d)
      | false =>
        obtain ⟨message, hmessage, rfl⟩ := hqueued
        exact hleaves.delivers hsend message hmessage

theorem deliverDrops_core (message : Message) (endpoint : Str) (s : APRSAdapter) :
    (deliverDrops message endpoint s).core = s.core := by
  rw [deliverDrops]
  split
  · exact supersedeForProactive_core s
  · rfl

/-- A call that returns and spares the carriers leaves no orphan. -/
theorem step_noOrphans (hsound : s.outbound.Sound setup) (hno : NoOrphans setup s) {call : Call}
    (hcall : call.LeavesDeliveries setup) {response : Response}
      (hreturns : answer setup s call = .ok response)
    (hspares : Spares setup s call) : NoOrphans setup (step setup s call) := by
  suffices hcalled : (call.method setup).Yields s fun outcome s' =>
      ∀ response, outcome = .ok response → NoOrphans setup s' from hcalled response hreturns
  cases call with
  | receive peer body now =>
    exact Yields.bind (receive_noOrphans hsound hno hspares) (fun disposition _ hs' _ _ =>
      hs' disposition rfl)
      fun _ _ _ => nofun
  | poll now =>
    exact Yields.bind (pollEmissions_settles hsound) (fun emissions _ hs' _ _ =>
      (hs' emissions rfl).noOrphans hno)
      fun _ _ _ => nofun
  | queueFrame peer frame options => exact hcall.elim
  | deliverMessage message endpoint =>
    refine Yields.bind (deliverMessage_adds message endpoint s) (fun _ s' hs' _ _ => ?_)
      fun _ _ _ => nofun
    refine hs'.1.covers.noOrphans (deliverDrops_core message endpoint s) fun d hd => ?_
    refine (hspares _ _ (.proactive message endpoint) d hd).imp_right ?_
    rintro rfl
    exact hs'.2 rfl
  | connectionLost =>
    refine Yields.bind (connectionLost_keepsLedger hsound.base.1 hsound.base.2)
      (fun _ s' hs' _ _ => ?_)
      fun _ _ _ => nofun
    exact (Settles.of_ledger hs').noOrphans hno
  | core change => exact fun _ _ d hd => hno d (hcall s.core d hd)

/-! ### Runs -/

/-- As long as all calls return, and none supersedes the last carrier of a pending delivery without
queueing the message again, every pending delivery is carried by a transaction that waits or is
active. -/
theorem runState_noOrphans (setup : Setup) (core : CoreState) (calls : List Call)
    (hstart : ∀ d, ¬core.Pending setup.stores d) (hcalls : ∀ call ∈ calls,
      call.LeavesDeliveries setup)
    (hsteps : ∀ n < calls.length, AtCall setup core calls n fun s call =>
      (∃ response, answer setup s call = .ok response) ∧ Spares setup s call) :
    ∀ i ≤ calls.length, NoOrphans setup (runState setup core calls i) := by
  intro i hi
  induction i with
  | zero => exact fun d hd => absurd hd (hstart d)
  | succ i ih =>
    obtain ⟨h, ⟨response, hreturns⟩, hspares⟩ := hsteps i hi
    rw [runState, stateAt_succ h]
    exact step_noOrphans (runState_sound setup core calls i h.le) (ih h.le)
      (hcalls _ (List.getElem_mem h))
      hreturns hspares

section Mailbox

/-- A station that routes no message at once. -/
def withoutRouter : Setup := .standard false ⟨true, true⟩

/-- `EA1ABC` sends a message to `EA2DEF`, who reads the mailbox, and then asks for the capabilities
before the message has been acknowledged. -/
def readsThenAsks : List Call :=
  [.receive (str "EA1ABC") (str "Q1:000:00/01:AQEADQAAAAEGRUEyREVGAXg") 0,
    .receive (str "EA2DEF") (str "Q1:001:00/01:AQIABQAAAAAU") 1,
    .receive (str "EA2DEF") (str "Q1:002:00/01:AQUAAA") 2]

/-- The core that the station starts with. -/
def freshCore : CoreState := ⟨.fresh, 1700000000, .empty⟩

theorem returns_of_isOk {α : Type} {x : Py α} (h : x.isOk = true) : ∃ a, x = .ok a := by
  cases x with
  | ok a => exact ⟨a, rfl⟩
  | error e => cases h

theorem not_pending_of_no_deliveries {core : CoreState} (h : core.tables.deliveries.entries = [])
    (d : Delivery) :
    ¬core.Pending setup.stores d := by
  rintro ⟨-, -, hstatus⟩
  rw [CoreState.aprsStatus, show core.tables.deliveries = .empty from OrderedDict.ext h] at hstatus
  cases hstatus

/-- The request for the capabilities supersedes the message, whose delivery stays pending. -/
theorem orphaned_by_request :
    (∀ d, ¬freshCore.Pending withoutRouter.stores d) ∧
      (∀ call ∈ readsThenAsks, call.LeavesDeliveries withoutRouter) ∧
      (∀ n < 3, AtCall withoutRouter freshCore readsThenAsks n fun s call =>
        ∃ response, answer withoutRouter s call = .ok response) ∧
      ¬NoOrphans withoutRouter (runState withoutRouter freshCore readsThenAsks 3) := by
  refine ⟨not_pending_of_no_deliveries rfl, ?_, fun n hn => ?_, fun hno => ?_⟩
  · intro call hcall
    simp only [readsThenAsks, List.mem_cons, List.not_mem_nil, or_false] at hcall
    rcases hcall with rfl | rfl | rfl <;> trivial
  · have hok : ∀ n, (h : n < readsThenAsks.length) →
        (answer withoutRouter (runState withoutRouter freshCore readsThenAsks n)
          readsThenAsks[n]).isOk = true := by
      decide +kernel
    exact ⟨hn, returns_of_isOk (hok n hn)⟩
  · have hpending : (runState withoutRouter freshCore readsThenAsks
      3).core.Pending withoutRouter.stores
        (str "EA2DEF", 1) := by decide +kernel
    obtain ⟨tx, htx, hdelivery⟩ := hno _ hpending
    have hnone : ∀ tx ∈ (runState withoutRouter freshCore readsThenAsks 3).outbound.held,
      tx.delivery = none := by
      decide +kernel
    exact nomatch (hnone tx htx).symm.trans hdelivery

theorem runState_noOrphans_mailbox :
    (runState withoutRouter freshCore (readsThenAsks.take 2) 2).core.Pending withoutRouter.stores
      (str "EA2DEF", 1) ∧
      ∀ i ≤ 2, NoOrphans withoutRouter (runState withoutRouter freshCore (readsThenAsks.take 2)
        i) := by
  refine ⟨by decide +kernel, ?_⟩
  refine runState_noOrphans withoutRouter freshCore (readsThenAsks.take 2)
    (not_pending_of_no_deliveries rfl) ?_ ?_
  · intro call hcall
    have hcall := List.mem_of_mem_take hcall
    simp only [readsThenAsks, List.mem_cons, List.not_mem_nil, or_false] at hcall
    rcases hcall with rfl | rfl | rfl <;> trivial
  · intro n hn
    have hok : ∀ n, (h : n < (readsThenAsks.take 2).length) →
        (answer withoutRouter (runState withoutRouter freshCore (readsThenAsks.take 2) n)
          (readsThenAsks.take 2)[n]).isOk = true ∧
        (runState withoutRouter freshCore (readsThenAsks.take 2) n).core.tables.deliveries.entries =
          [] := by
      decide +kernel
    obtain ⟨hreturns, hnone⟩ := hok n hn
    exact ⟨hn, returns_of_isOk hreturns, spares_of_not_pending
      (not_pending_of_no_deliveries hnone) _⟩

end Mailbox

end OpenQSP
