import OpenQSP.Aprs.Batches
import OpenQSP.Aprs.Superseding
import OpenQSP.Server.Pending

/-!
# Who carries a pending delivery

A delivery becomes pending when its message is queued. Requests and proactive messages then drop
transactions, some of which may carry a message. What a request drops is a function of the state in
which it is found and of Core's answer; everything else that waits or is active stays, and the
messages of the answer are carried afterwards.

## Main definitions

* `Outbound.Delivers`
* `Adds`, `Covers` — transactions were queued, and what became pending is carried
* `deliverDrops`, `routeDrops`, `requestDrops` — what is dropped
* `Serves`, `Leaves` — a request that was answered

## Main results

* `deliverMessage_adds`, `executeFrame_adds`, `queueResponses_adds`
* `receive_miss_covers`, `receive_hit_covers` — a packet of a request
-/

namespace OpenQSP

open APRSAdapter Method Py

variable {setup : Setup} {peer : Str} {key : TransactionKey} {s s' t : APRSAdapter} {now : ℚ}
    {d : Delivery}

/-- A transaction that waits or is active makes the delivery. -/
def Outbound.Delivers (d : Delivery) (o : Outbound) : Prop := ∃ tx ∈ o.held, tx.delivery = some d

theorem Outbound.delivers_iff {o : Outbound} : o.Delivers d ↔ ∃ p ∈ o.parcels,
    p.delivery = some d := by
  constructor
  · rintro ⟨tx, htx, hd⟩
    exact ⟨tx.parcel, List.mem_map_of_mem htx, hd⟩
  · rintro ⟨p, hp, hd⟩
    obtain ⟨tx, htx, rfl⟩ := List.mem_map.mp hp
    exact ⟨tx, htx, hd⟩

/-! ### Queueing -/

/-- Transactions with the property `P` were queued, and they carry what became pending. -/
def Adds (setup : Setup) (P : BurstTx → Prop) (s s' : APRSAdapter) : Prop :=
  ∃ queued, s'.burstQueue = s.burstQueue ++ queued ∧ (∀ tx ∈ queued, P tx) ∧
    s'.burstActive = s.burstActive ∧
    ∀ d, s'.core.Pending setup.stores d → s.core.Pending setup.stores d ∨ ∃ tx ∈ queued,
      tx.delivery = some d

variable {P P' : BurstTx → Prop}

instance : IsPreorder APRSAdapter (Adds setup P) where
  refl s := ⟨[], (List.append_nil _).symm, fun _ h => absurd h List.not_mem_nil, rfl,
    fun _ h => .inl h⟩
  trans := by
    rintro s s' s'' ⟨queued, hqueue, hP, hactive, hpending⟩ ⟨queued', hqueue', hP', hactive',
      hpending'⟩
    refine ⟨queued ++ queued', ?_, fun tx htx => ?_, hactive'.trans hactive, fun d hd => ?_⟩
    · rw [hqueue', hqueue, List.append_assoc]
    · exact (List.mem_append.mp htx).elim (hP tx) (hP' tx)
    · rcases hpending' d hd with hd | ⟨tx, htx, hdelivery⟩
      · refine (hpending d hd).imp_right ?_
        rintro ⟨tx, htx, hdelivery⟩
        exact ⟨tx, List.mem_append_left _ htx, hdelivery⟩
      · exact .inr ⟨tx, List.mem_append_right _ htx, hdelivery⟩

theorem Adds.mono (h : Adds setup P s s') (hP : ∀ tx, P tx → P' tx) : Adds setup P' s s' := by
  obtain ⟨queued, hqueue, hqueued, hrest⟩ := h
  exact ⟨queued, hqueue, fun tx htx => hP tx (hqueued tx htx), hrest⟩

/-- Nothing was queued, and nothing became pending. -/
theorem Adds.of_keeps (hbursts : Keeps APRSAdapter.bursts s s')
    (hdeliveries : s'.core.tables.deliveries = s.core.tables.deliveries) : Adds setup P s s' := by
  obtain ⟨hqueue, hactive, -⟩ := bursts_inj hbursts
  refine ⟨[], ?_, fun _ h => absurd h List.not_mem_nil, hactive, fun d hd =>
    .inl (hd.congr hdeliveries.symm)⟩
  rw [hqueue, List.append_nil]

theorem Adds.delivers (h : Adds setup P s s') (hd : s.outbound.Delivers d) :
    s'.outbound.Delivers d := by
  obtain ⟨queued, hqueue, -, hactive, -⟩ := h
  obtain ⟨tx, htx, hdelivery⟩ := hd
  refine ⟨tx, ?_, hdelivery⟩
  rcases List.mem_append.mp htx with htx | htx
  · exact List.mem_append_left _ (show tx ∈ s'.burstQueue from hqueue ▸ List.mem_append_left _ htx)
  · exact List.mem_append_right _ (show tx ∈ s'.burstActive.values from hactive ▸ htx)

theorem Adds.pending (h : Adds setup P s s') (hd : s'.core.Pending setup.stores d) :
    s.core.Pending setup.stores d ∨ s'.outbound.Delivers d := by
  obtain ⟨queued, hqueue, -, -, hpending⟩ := h
  refine (hpending d hd).imp_right ?_
  rintro ⟨tx, htx, hdelivery⟩
  have hmem : tx ∈ s'.burstQueue := hqueue ▸ List.mem_append_right _ htx
  exact ⟨tx, List.mem_append_left _ hmem, hdelivery⟩

/-! ### Superseding -/

/-- What was queued stays when other transactions are dropped. -/
theorem Adds.dropBatches (h : Adds setup P s s') (peer : Str) {p : BurstTx → Bool}
    (hp : ∀ tx, P tx → p tx = true → tx.delivery = none) :
    Adds setup P (dropBatches peer p s) (dropBatches peer p s') := by
  obtain ⟨queued, hqueue, hqueued, hactive, hpending⟩ := h
  refine ⟨queued.filter fun tx => !p tx, ?_, fun tx htx => hqueued tx (List.mem_filter.mp htx).1,
    ?_,
    fun d hd => (hpending d hd).imp_right ?_⟩
  · show s'.burstQueue.filter _ = s.burstQueue.filter _ ++ _
    rw [hqueue, List.filter_append]
  · show s'.burstActive.filter _ = s.burstActive.filter _
    rw [hactive]
  · rintro ⟨tx, htx, hdelivery⟩
    refine ⟨tx, List.mem_filter.mpr ⟨htx, ?_⟩, hdelivery⟩
    cases hdrop : p tx with
    | false => rfl
    | true => exact nomatch (hp tx (hqueued tx htx) hdrop).symm.trans hdelivery

/-- What has no batch makes no batch stale. -/
theorem Adds.staleBatches_eq (h : Adds setup (·.responseBatch = none) s s') :
    staleBatches peer key s' = staleBatches peer key s := by
  obtain ⟨queued, hqueue, hqueued, hactive, -⟩ := h
  have hnone : (queued.filter fun tx => tx.peer = peer).filterMap
      (fun tx => staleBatch key tx.responseBatch tx.responseSupersedable) = [] := by
    refine List.filterMap_eq_nil_iff.mpr fun tx htx => ?_
    rw [hqueued tx (List.mem_filter.mp htx).1, staleBatch, ite_self]
  rw [staleBatches, staleBatches, hqueue, hactive, List.filter_append, List.filterMap_append, hnone,
    List.append_nil]

variable (peer key) in
theorem Adds.supersedeStaleBatches (h : Adds setup (·.responseBatch = none) s s') :
    Adds setup (·.responseBatch = none) (supersedeStaleBatches peer key s)
      (supersedeStaleBatches peer key s') := by
  rw [supersedeStaleBatches_eq, supersedeStaleBatches_eq, h.staleBatches_eq]
  have hbase : Adds setup (·.responseBatch = none) (supersedeBase peer key s)
    (supersedeBase peer key s') := h
  refine hbase.dropBatches peer fun tx htx hdrop => ?_
  rw [htx] at hdrop
  cases hdrop

theorem Adds.supersedeForProactive (h : Adds setup (·.responseBatch = none) s s') :
    Adds setup (·.responseBatch = none) (supersedeForProactive peer s)
      (supersedeForProactive peer s') := by
  obtain ⟨queued, hqueue, hqueued, hactive, hpending⟩ := h
  rw [OpenQSP.supersedeForProactive, OpenQSP.supersedeForProactive, hactive]
  cases s.burstActive.get? peer with
  | none => exact ⟨queued, hqueue, hqueued, hactive, hpending⟩
  | some active =>
    dsimp only
    by_cases hkeep : active.responseBatch = none ∨ active.responseSupersedable = false
    · rw [if_pos hkeep, if_pos hkeep]
      exact ⟨queued, hqueue, hqueued, hactive, hpending⟩
    · rw [if_neg hkeep, if_neg hkeep]
      have hstays : (queued.filter fun tx => ¬(tx.peer = peer ∧
        tx.responseBatch = active.responseBatch)) = queued := by
        refine List.filter_eq_self.mpr fun tx htx => decide_eq_true ?_
        rintro ⟨-, hbatch⟩
        exact hkeep (.inl (hbatch.symm.trans (hqueued tx htx)))
      refine ⟨queued, ?_, hqueued, rfl, hpending⟩
      show s'.burstQueue.filter _ = s.burstQueue.filter _ ++ queued
      rw [hqueue, List.filter_append, hstays]

/-! ### Messages that are routed -/

/-- What the delivery of a message to an endpoint drops, if the message can be sent there at all. -/
def deliverDrops (message : Message) (endpoint : Str) (s : APRSAdapter) : APRSAdapter :=
  match encodeFrame (.message message) true, validatePeer endpoint with
  | .ok _, .ok _ => supersedeForProactive endpoint s
  | _, _ => s

/-- What the router drops for a message that was stored. -/
def routeDrops (setup : Setup) (s : APRSAdapter) (message : Message) : APRSAdapter :=
  match setup.router, s.core.aprsEndpoint message.recipient with
  | true, .ok (some endpoint) => deliverDrops message endpoint s
  | _, _ => s

variable (setup s) in
/-- A transaction that was queued carries the delivery that is marked as pending for it. -/
theorem Adds.queued {tx : BurstTx} (next : OrderedDict Str ℕ) (order : ℕ) (hP : P tx) :
    (markDelivery (CoreState.markAprsPending setup.stores) tx.delivery).Yields
      { s with nextTransaction := next, burstQueue := s.burstQueue ++ [tx], burstOrder := order }
      fun _ s' => Adds setup P s s' ∧ tx ∈ s'.burstQueue := by
  have hqueued : ∀ tx' ∈ [tx], P tx' := fun tx' htx' => List.mem_singleton.mp htx' ▸ hP
  have hmem : tx ∈ s.burstQueue ++ [tx] := List.mem_append_right _ (List.mem_singleton_self tx)
  cases hdelivery : tx.delivery with
  | none => exact ⟨⟨[tx], rfl, hqueued, rfl, fun _ hd => .inl hd⟩, hmem⟩
  | some delivery =>
    refine ⟨⟨[tx], rfl, hqueued, rfl, fun d hd =>
      (CoreState.markAprsPending_pending hd).imp_right ?_⟩, hmem⟩
    rintro rfl
    exact ⟨tx, List.mem_singleton_self _, hdelivery⟩

theorem routeDrops_core (message : Message) : (routeDrops setup s message).core = s.core := by
  rw [routeDrops]
  split
  · rw [deliverDrops]
    split
    · exact supersedeForProactive_core s
    · rfl
  · rfl

theorem deliverMessage_adds (message : Message) (endpoint : Str) (s : APRSAdapter) :
    (deliverMessage setup message endpoint).Yields s fun outcome s' =>
      Adds setup (·.responseBatch = none) (deliverDrops message endpoint s) s' ∧
      (outcome = .ok () → s'.outbound.Delivers (message.recipient, message.sequence)) := by
  rw [deliverMessage]
  refine Yields.ofExcept_bind (fun frame hencode => ?_) fun e he => ?_
  swap
  · rw [deliverDrops, he]
    exact ⟨refl_of (Adds setup _) s, fun h => by cases h⟩
  cases hpeer : validatePeer endpoint with
  | error e =>
    dsimp only
    rw [queueFrame, hpeer, deliverDrops, hencode, hpeer]
    exact ⟨refl_of (Adds setup _) s, fun h => by cases h⟩
  | ok peer =>
    rw [deliverDrops, hencode, hpeer]
    refine Yields.bind (queueFrame_spec hpeer s) (fun _ s₁ hs₁ => ?_) fun e s₁ hs₁ => ?_
    · obtain ⟨-, tx, next, htx, rfl⟩ := hs₁.1 _ rfl
      have hqueued := Adds.queued setup (supersedeForProactive endpoint s)
        (P := (·.responseBatch = none)) next
        ((supersedeForProactive endpoint s).burstOrder + 1) htx.responseBatch_eq
      rw [htx.delivery_eq] at hqueued
      exact Yields.mono hqueued fun _ s' hs' =>
        ⟨hs'.1, fun _ => ⟨tx, List.mem_append_left _ hs'.2, htx.delivery_eq⟩⟩
    · obtain ⟨-, next, rfl⟩ := hs₁.2 e rfl
      exact ⟨Adds.of_keeps rfl rfl, fun h => by cases h⟩

/-- What the adapter knows of the presence of the users does not depend on its transactions. -/
theorem Adds.routeDrops (h : Adds setup (·.responseBatch = none) s s')
    (hpresence : s'.core.presence = s.core.presence) (message : Message) :
    Adds setup (·.responseBatch = none) (routeDrops setup s message)
      (routeDrops setup s' message) := by
  have hendpoint : s'.core.aprsEndpoint message.recipient =
    s.core.aprsEndpoint message.recipient := by
    rw [CoreState.aprsEndpoint, CoreState.aprsEndpoint, hpresence]
  rw [OpenQSP.routeDrops, OpenQSP.routeDrops, hendpoint]
  split
  · rw [deliverDrops, deliverDrops]
    split
    · exact h.supersedeForProactive
    · exact h
  · exact h

/-- What a listener raises is dropped. -/
theorem routeMessage_adds (message : Message) (s : APRSAdapter) :
    (routeMessage setup message).Yields s fun outcome s' => outcome = .ok () ∧
      Adds setup (·.responseBatch = none) (routeDrops setup s message) s' := by
  rw [routeMessage]
  split
  · next hrouter =>
    refine Yields.catchError (Q := fun _ s' =>
      Adds setup (·.responseBatch = none) (routeDrops setup s message) s')
      ?_ (fun _ _ h => ⟨rfl, h⟩) fun _ _ h => ⟨rfl, h⟩
    refine Yields.get_bind (Yields.ofExcept_bind (fun endpoint hendpoint => ?_) fun e he => ?_)
    · rw [routeDrops, hrouter, hendpoint]
      cases endpoint with
      | none => exact refl_of (Adds setup _) s
      | some endpoint => exact Yields.mono (deliverMessage_adds message endpoint s) fun _ _ h => h.1
    · rw [routeDrops, hrouter, he]
      exact refl_of (Adds setup _) s
  · next hrouter =>
    rw [routeDrops, Bool.eq_false_iff.mpr hrouter]
    exact ⟨rfl, refl_of (Adds setup _) s⟩

/-- Of the core, routing changes the tables only. -/
theorem routeMessage_keepsPresence (message : Message) :
    (routeMessage setup message).Moves (Keeps fun s => s.core.presence) := by
  refine Moves.ite (Moves.catchError (Moves.get_bind fun s =>
    Moves.bind (Moves.ofExcept _) fun endpoint => ?_)
    fun _ => Moves.pure _) (Moves.pure _)
  cases endpoint with
  | none => exact Moves.pure _
  | some endpoint =>
    refine Moves.bind (Moves.ofExcept _) fun frame => Moves.bind ?_ fun _ => fun s => ?_
    · exact (queueFrame_keepsCore _ _).mono fun _ _ h => congrArg CoreState.presence h
    · exact CoreState.markAprsPending_keepsPresence _ s.core

/-- The messages are routed one after another. -/
theorem routeAll_adds (events : List Message) (h : Adds setup (·.responseBatch = none) t s)
    (hpresence : s.core.presence = t.core.presence) :
    (events.forM (routeMessage setup)).Yields s fun outcome s' => outcome = .ok () ∧
      Adds setup (·.responseBatch = none) (events.foldl (routeDrops setup) t) s' := by
  induction events generalizing t s with
  | nil => exact ⟨rfl, h⟩
  | cons event events ih =>
    refine Yields.bind (Yields.and (routeMessage_adds event s)
      (Yields.of_moves (routeMessage_keepsPresence event)))
      (fun _ s₁ hs₁ => ih (trans_of (Adds setup _) (h.routeDrops hpresence event) hs₁.1.2) ?_)
      fun _ _ hs₁ => nomatch hs₁.1.1
    rw [routeDrops_core]
    exact Eq.trans hs₁.2 hpresence

/-! ### A request -/

/-- Core answers a request, and routes the message that it stored. -/
theorem executeFrame_adds {request : ProtocolObject} {frame : Bytes}
    (hdecode : decodeFrame frame = .ok request)
    (callsign : Str) (hadds : Adds setup (·.responseBatch = none) t s)
      (hpresence : s.core.presence = t.core.presence) :
    (executeFrame setup key callsign frame).Yields s fun outcome s' =>
      ∀ frames, outcome = .ok frames → ∃ responses events tables,
        (dispatch setup.stores s.core.clock callsign request).run s.core.tables =
          (.ok (responses, events), tables) ∧
        List.Forall₂ (fun response data => encodeFrame response false = .ok data) responses frames ∧
        Adds setup (·.responseBatch = none) (events.foldl (routeDrops setup) t) s' := by
  have hdispatch : (dispatchRouted setup callsign request).Yields s fun outcome s' =>
      ∀ responses, outcome = .ok responses → ∃ events tables,
        (dispatch setup.stores s.core.clock callsign request).run s.core.tables =
          (.ok (responses, events), tables) ∧
        Adds setup (·.responseBatch = none) (events.foldl (routeDrops setup) t) s' := by
    refine Yields.get_bind (Yields.bind (Q := fun outcome s₁ =>
      outcome = ((dispatch setup.stores s.core.clock callsign request).run s.core.tables).1 ∧
      s₁ = { s with core := { s.core with
        tables := ((dispatch setup.stores s.core.clock callsign request).run s.core.tables).2 } })
          ⟨rfl, rfl⟩ ?_
      fun _ _ _ => nofun)
    rintro ⟨responses, events⟩ s₁ ⟨houtcome, rfl⟩
    have hstored : Adds setup (·.responseBatch = none) s { s with core := { s.core with
        tables := ((dispatch setup.stores s.core.clock callsign request).run s.core.tables).2 } } :=
      .of_keeps rfl (dispatch_keepsDeliveries s.core.clock callsign request s.core.tables)
    refine Yields.bind (routeAll_adds events (trans_of (Adds setup _) hadds hstored) hpresence)
      (fun _ s₂ hs₂ => ?_) fun _ _ _ => nofun
    intro responses' hresponses
    obtain rfl := Except.ok.inj hresponses
    exact ⟨events, _, Prod.ext houtcome.symm rfl, hs₂.2⟩
  intro frames h
  rcases handleFrame_eq_ok h with ⟨request', responses, hdecode', hrun, hencoded⟩ | ⟨hnone, -⟩
  · obtain rfl := Except.ok.inj (hdecode.symm.trans hdecode')
    obtain ⟨events, tables, hcore, hadds⟩ := hdispatch responses (congrArg Prod.fst hrun)
    rw [hrun] at hadds
    exact ⟨responses, events, tables, hcore, hencoded, hadds⟩
  · exact absurd hdecode (hnone request)

/-- The transactions and the deliveries of the database. -/
def APRSAdapter.ledger (s : APRSAdapter) :
    (List BurstTx × OrderedDict Str BurstTx × ℕ) × OrderedDict (Str × ℕ × Str) DeliveryRow :=
  (s.bursts, s.core.tables.deliveries)

theorem Adds.of_ledger (h : Keeps APRSAdapter.ledger s s') : Adds setup P s s' :=
  .of_keeps (Prod.mk.inj h).1 (Prod.mk.inj h).2

theorem confirmInbound_keepsLedger (messageId : Option Str) (accepted : Bool) :
    (confirmInbound setup peer messageId accepted).Moves (Keeps APRSAdapter.ledger) := by
  refine Moves.ite (Moves.pure _) ?_
  cases messageId with
  | none => exact Moves.pure _
  | some messageId => exact Moves.modify fun _ => rfl

theorem activateAprs_keepsLedger (responses : List Bytes) :
    (activateAprs setup peer responses).Moves (Keeps APRSAdapter.ledger) := by
  refine Moves.ite (Moves.pure _) (Moves.bind (Moves.ofExcept _) fun _ => ?_)
  refine Moves.ite (Moves.pure _) (Moves.bind (Moves.ofExcept _) fun callsign => fun s => ?_)
  have hsetAprs : (CoreState.setAprs callsign peer).Moves (Keeps CoreState.tables) :=
    Moves.bind (Moves.ofExcept _) fun _ => Moves.bind (Moves.ofExcept _) fun _ =>
      Moves.modify fun _ => rfl
  exact congrArg (fun t : Tables => (s.bursts, t.deliveries)) (hsetAprs s.core)

/-- The base class has nothing that a cursor could confirm. -/
theorem reconcileRequest_nothing (callsign : Str) (request : ProtocolObject) (hqueue : s.queue = [])
    (hpending : s.pending = .empty) :
    (reconcileRequest setup peer callsign request).Yields s fun _ s' =>
      s'.core = s.core ∧ Keeps APRSAdapter.bursts s s' := by
  cases request with
  | getNewMessages request =>
    refine Yields.get_bind ?_
    rw [hqueue, hpending]
    exact ⟨rfl, rfl⟩
  | _ => exact ⟨rfl, rfl⟩

/-- The message that a response carries, if it is one. -/
theorem deliveryOf_message {data : Bytes} {message : Message}
    (h : encodeFrame (.message message) false = .ok data) :
    deliveryOf data = .ok (some (message.recipient, message.sequence)) := by
  rw [deliveryOf, decodeFrame_of_encodeFrame h]
  rfl

/-- The responses are queued for their batch. When all of them could be queued, the messages among
them are carried. -/
theorem queueResponses_adds (hpeer : validatePeer key.1 = .ok key.1) (supersedable : Bool)
    (responses : List Bytes)
    (s : APRSAdapter) :
    (queueResponses setup key supersedable responses).Yields s fun outcome s' =>
      Adds setup (fun tx => tx.responseBatch = some key ∧
        ∀ d, tx.delivery = some d → ∃ data ∈ responses, deliveryOf data = .ok (some d)) s s' ∧
      (outcome = .ok () → ∀ data ∈ responses, ∀ d, deliveryOf data = .ok (some d) →
        s'.outbound.Delivers d) := by
  induction responses generalizing s with
  | nil => exact ⟨refl_of (Adds setup _) s, fun _ _ h => absurd h List.not_mem_nil⟩
  | cons response responses ih =>
    refine Yields.bind (Q := fun outcome s₁ => Adds setup (fun tx => tx.responseBatch = some key ∧
      ∀ d, tx.delivery = some d → deliveryOf response = .ok (some d)) s s₁ ∧
      (outcome = .ok () → ∀ d, deliveryOf response = .ok (some d) → s₁.outbound.Delivers d)) ?_
      (fun _ s₁ hs₁ => ?_) fun e s₁ hs₁ => ?_
    · refine Yields.ofExcept_bind (fun delivery hdelivery => ?_) fun _ _ =>
        ⟨refl_of (Adds setup _) s, nofun⟩
      refine Yields.bind (queueFrame_spec hpeer s) (fun _ s₁ hs₁ => ?_) fun e s₁ hs₁ => ?_
      · obtain ⟨-, tx, next, htx, rfl⟩ := hs₁.1 _ rfl
        have hP : tx.responseBatch = some key ∧ ∀ d, tx.delivery = some d →
          deliveryOf response = .ok (some d) := by
          refine ⟨htx.responseBatch_eq, fun d hd => ?_⟩
          rw [hdelivery, ← hd, htx.delivery_eq]
        have hqueued := Adds.queued setup s (P := fun tx => tx.responseBatch = some key ∧
          ∀ d, tx.delivery = some d → deliveryOf response = .ok (some d)) next (s.burstOrder + 1) hP
        rw [htx.delivery_eq] at hqueued
        refine Yields.mono hqueued fun _ s' hs' =>
          ⟨hs'.1, fun _ d hd => ⟨tx, List.mem_append_left _ hs'.2, ?_⟩⟩
        rw [htx.delivery_eq, Except.ok.inj (hdelivery.symm.trans hd)]
      · obtain ⟨-, next, rfl⟩ := hs₁.2 e rfl
        exact ⟨Adds.of_ledger rfl, nofun⟩
    · refine Yields.mono (ih s₁) fun outcome s' hs' =>
        ⟨trans_of (Adds setup _) (hs₁.1.mono fun tx htx => ?_)
        (hs'.1.mono fun tx htx => ?_), fun houtcome data hdata d hd => ?_⟩
      · exact ⟨htx.1, fun d hd => ⟨response, List.mem_cons_self, htx.2 d hd⟩⟩
      · refine ⟨htx.1, fun d hd => ?_⟩
        obtain ⟨data, hdata, hdelivery⟩ := htx.2 d hd
        exact ⟨data, List.mem_cons_of_mem _ hdata, hdelivery⟩
      · rcases List.mem_cons.mp hdata with rfl | hdata
        · exact hs'.1.delivers (hs₁.2 rfl d hd)
        · exact hs'.2 houtcome data hdata d hd
    · refine ⟨hs₁.1.mono fun tx htx => ⟨htx.1, fun d hd =>
        ⟨response, List.mem_cons_self, htx.2 d hd⟩⟩, nofun⟩

/-- The responses of Core as the frames that are sent. -/
abbrev EncodedAs (responses : List ProtocolObject) (frames : List Bytes) : Prop :=
  List.Forall₂ (fun response data => encodeFrame response false = .ok data) responses frames

theorem message_of_deliveryOf {responses : List ProtocolObject} {frames : List Bytes}
    (h : EncodedAs responses frames) {data : Bytes} (hdata : data ∈ frames)
      (hd : deliveryOf data = .ok (some d)) :
    ∃ message, .message message ∈ responses ∧ d = (message.recipient, message.sequence) := by
  obtain ⟨response, hresponse, hdecode⟩ := decodeFrame_of_mem_responses h hdata
  rw [deliveryOf, hdecode, Py.ok_bind] at hd
  cases response with
  | message message => exact ⟨message, hresponse, (Option.some.inj (Except.ok.inj hd)).symm⟩
  | _ => cases hd

theorem deliveryOf_of_message {responses : List ProtocolObject} {frames : List Bytes}
    (h : EncodedAs responses frames) {message : Message} (hmessage : .message message ∈ responses) :
    ∃ data ∈ frames, deliveryOf data = .ok (some (message.recipient, message.sequence)) := by
  obtain ⟨data, hdata, hencode⟩ := Py.exists_of_mem_forall₂ h.flip hmessage
  exact ⟨data, hdata, deliveryOf_message hencode⟩

theorem stored_of_sendWasStored {responses : List ProtocolObject} {frames : List Bytes}
    (h : EncodedAs responses frames) (hstored : sendWasStored frames = .ok true) : responses =
      [.stored] := by
  match frames, hstored with
  | [data], hstored =>
    obtain ⟨object, hdecode, hobject⟩ := bind_eq_ok.mp hstored
    obtain ⟨response, rest, hencode, hrest, rfl⟩ := List.forall₂_cons_right_iff.mp h
    obtain rfl := List.forall₂_nil_right_iff.mp hrest
    obtain rfl := Except.ok.inj ((decodeFrame_of_encodeFrame hencode).symm.trans hdecode)
    rw [of_decide_eq_true (Except.ok.inj hobject)]

/-- A transaction of a routed message, or one of the answer to a request. -/
def OfAnswer (key : TransactionKey) (responses : List ProtocolObject) (tx : BurstTx) : Prop :=
  tx.responseBatch = none ∨ tx.responseBatch = some key ∧
    ∀ d, tx.delivery = some d → ∃ message, .message message ∈ responses ∧
      d = (message.recipient, message.sequence)

theorem finishRequest_adds {messageId : Option Str} {callsign : Str} {request : ProtocolObject}
    {frame : Bytes}
    {responses : List ProtocolObject} {frames : List Bytes} (hpeer : validatePeer key.1 = .ok key.1)
    (hencoded : EncodedAs responses frames) (s : APRSAdapter) :
    (finishRequest setup key messageId callsign request frame frames now).Yields s fun outcome s' =>
      ∀ disposition, outcome = .ok disposition →
        Adds setup (OfAnswer key responses) (supersedeStaleBatches key.1 key s) s' ∧
        (request.isSendMessage = false → ∀ message, .message message ∈ responses →
          s'.outbound.Delivers (message.recipient, message.sequence)) := by
  refine Yields.bind_of_moves (activateAprs_keepsLedger frames) (fun _ s₁ hs₁ => ?_)
    fun _ _ _ => nofun
  refine Yields.modify_bind (Yields.modify_bind (Yields.modify_bind ?_))
  generalize hs₂ : noteCompleted setup key callsign now _ = s₂
  have hsuperseded : Adds setup (OfAnswer key responses) (supersedeStaleBatches key.1 key s)
    s₂ := by
    have hledger : Adds setup (·.responseBatch = none) s s₁ := .of_ledger hs₁
    have hadds := hledger.supersedeStaleBatches key.1 key
    rw [← hs₂]
    exact hadds.mono fun _ => .inl
  split
  · next hsend =>
    refine Yields.ofExcept_bind (fun accepted _ => ?_) fun _ _ => nofun
    refine Yields.bind_of_moves (confirmInbound_keepsLedger _ _) (fun _ s₃ hs₃ => ?_)
      fun _ _ _ => nofun
    rintro _ -
    exact ⟨trans_of (Adds setup _) hsuperseded (.of_ledger hs₃), fun hnot =>
      nomatch hnot.symm.trans hsend.1⟩
  · refine Yields.bind (queueResponses_adds hpeer _ frames s₂) (fun _ s₃ hs₃ => ?_)
      fun _ _ _ => nofun
    rintro _ -
    refine ⟨trans_of (Adds setup _) hsuperseded (hs₃.1.mono fun tx htx =>
      .inr ⟨htx.1, fun d hd => ?_⟩),
      fun _ message hmessage => ?_⟩
    · obtain ⟨data, hdata, hdelivery⟩ := htx.2 d hd
      exact message_of_deliveryOf hencoded hdata hdelivery
    · obtain ⟨data, hdata, hdelivery⟩ := deliveryOf_of_message hencoded hmessage
      exact hs₃.2 rfl data hdata _ hdelivery

/-- A request was answered: what it supersedes is gone, and its answer is queued. -/
structure Serves (setup : Setup) (key : TransactionKey) (frame : Bytes) (request : ProtocolObject)
    (responses : List ProtocolObject) (events : List Message) (s s' : APRSAdapter) : Prop where
  decoded : decodeFrame frame = .ok request
  isRequest : request.isRequest = true
  dispatched : ∃ callsign tables, normalizeCallsign key.1 "APRS source" = .ok callsign ∧
    (dispatch setup.stores s.core.clock callsign request).run s.core.tables =
      (.ok (responses, events), tables)
  adds : Adds setup (OfAnswer key responses) (supersedeStaleBatches key.1 key
    (events.foldl (routeDrops setup) s)) s'
  delivers : request.isSendMessage = false → ∀ message, .message message ∈ responses →
    s'.outbound.Delivers (message.recipient, message.sequence)
  /-- The cache holds the result of this request. -/
  stored : ∀ replay, (key, replay) ∈ s'.replay.entries → replay.isStoredSend = .ok true →
    request.isSendMessage = true ∧ responses = [.stored]

theorem completeRequest_serves {frame : Bytes} (messageId : Option Str)
    (hpeer : validatePeer key.1 = .ok key.1)
    (hqueue : s.queue = []) (hpending : s.pending = .empty)
      (hadds : Adds setup (·.responseBatch = none) t s)
    (hcore : s.core = t.core) :
    (completeRequest setup key messageId frame now).Yields s fun outcome s' =>
      ∀ disposition, outcome = .ok disposition → disposition = .invalid ∧
        Keeps APRSAdapter.ledger s s' ∨
        ∃ request responses events, Serves setup key frame request responses events t s' := by
  refine Yields.ofExcept_bind (fun request hdecode => ?_) fun _ _ => nofun
  split
  · refine Yields.bind_of_moves (Moves.when (confirmInbound_keepsLedger _ _)) (fun _ s₁ hs₁ => ?_)
      fun _ _ _ => nofun
    exact fun _ h => .inl ⟨(Except.ok.inj h).symm, hs₁⟩
  next hrequest =>
  have hrequest := Bool.eq_true_of_not_eq_false hrequest
  rw [confirmInbound_accepted, when_pure, pure_bind]
  refine Yields.ofExcept_bind (fun callsign hcallsign => ?_) fun _ _ => nofun
  refine Yields.bind (reconcileRequest_nothing callsign request hqueue hpending) (fun _ s₁ hs₁ =>
    ?_) fun _ _ _ => nofun
  obtain ⟨hcore₁, hbursts₁⟩ := hs₁
  have hadds₁ : Adds setup (·.responseBatch = none) t s₁ :=
    trans_of (Adds setup _) hadds (.of_keeps hbursts₁
      (congrArg (fun core => core.tables.deliveries) hcore₁))
  have hcore₁ := hcore₁.trans hcore
  refine Yields.bind (executeFrame_adds hdecode callsign hadds₁
    (congrArg CoreState.presence hcore₁))
    (fun frames s₂ hs₂ => ?_) fun _ _ _ => nofun
  obtain ⟨responses, events, tables, hdispatch, hencoded, hadds₂⟩ := hs₂ frames rfl
  rw [hcore₁] at hdispatch
  have hdecodes : ∀ data ∈ frames, ∃ response, decodeFrame data = .ok response := fun data hdata =>
    (decodeFrame_of_mem_responses hencoded hdata).imp fun _ h => h.2
  refine Yields.mono (Yields.and (finishRequest_adds hpeer hencoded s₂)
    (finishRequest_inbound hcallsign hdecodes s₂))
    fun outcome s' hs' disposition houtcome => .inr ⟨request, responses, events, ?_⟩
  obtain ⟨hfinish, -, hinbound⟩ := hs'
  obtain ⟨hadds', hdelivers⟩ := hfinish disposition houtcome
  have hsuperseded := hadds₂.supersedeStaleBatches key.1 key
  refine ⟨hdecode, hrequest, ⟨callsign, tables, hcallsign, hdispatch⟩,
    trans_of (Adds setup _) (hsuperseded.mono fun _ => .inl) hadds', hdelivers,
      fun replay hreplay hstored => ?_⟩
  rw [show s'.replay = _ from congrArg Inbound.replay hinbound] at hreplay
  rcases ReplayCache.mem_of_put hreplay with heq | ⟨-, hne⟩
  · obtain rfl := (Prod.mk.inj heq).2
    obtain ⟨request', hdecode', hsend, hwas⟩ := isSendMessage_of_isStoredSend hstored
    obtain rfl := Except.ok.inj (hdecode.symm.trans hdecode')
    exact ⟨hsend, stored_of_sendWasStored hencoded hwas⟩
  · exact absurd rfl hne

/-- A fragment completes a request, or it changes no transaction and no delivery. -/
theorem receiveFragment_serves {fragment : APRSFragment} (messageId : Option Str)
    (hpeer : validatePeer peer = .ok peer) (hqueue : s.queue = []) (hpending : s.pending = .empty)
    (hmiss : s.inbound.cached setup (peer, fragment.transactionId) now = none)
    (hadds : Adds setup (·.responseBatch = none) t s) (hcore : s.core = t.core) :
    (receiveFragment setup peer messageId fragment now).Yields s fun outcome s' =>
      ∀ disposition, outcome = .ok disposition →
        (disposition ≠ .completed ∧ disposition ≠ .replayed) ∧ Keeps APRSAdapter.ledger s s' ∨
        ∃ frame reassembly, s.reassembly.add setup.config.reassembly peer fragment now =
          (.ok (some frame), reassembly) ∧ ∃ request responses events,
            Serves setup (peer, fragment.transactionId) frame request responses events t s' := by
  rcases hadd : s.reassembly.add setup.config.reassembly peer fragment now with ⟨result, reassembly⟩
  refine Yields.bind (Q := fun outcome s' => outcome = .ok result ∧
    s' = { s with reassembly }) ?_ ?_
    fun _ _ h => by cases h.1
  · show _ ∧ _
    simp only [onReassembly, hadd, and_self]
  rintro added _ ⟨hadded, rfl⟩
  obtain rfl := Except.ok.inj hadded
  have hconfirm : ∀ (p : Prop) [Decidable p] (accepted : Bool) (value : Disposition),
      value ≠ .completed ∧ value ≠ .replayed → (do
        Method.when p (confirmInbound setup peer messageId accepted)
        return value : Adapter Disposition).Yields { s with reassembly } fun outcome s' =>
          ∀ disposition, outcome = .ok disposition →
            (disposition ≠ .completed ∧ disposition ≠ .replayed) ∧
              Keeps APRSAdapter.ledger s s' := by
    intro p _ accepted value hvalue
    refine Yields.bind_of_moves (Moves.when (confirmInbound_keepsLedger _ _)) (fun _ s' hs' => ?_)
      fun _ _ _ _ h => by cases h
    intro disposition h
    obtain rfl := Except.ok.inj h
    exact ⟨hvalue, hs'⟩
  rcases added with e | _ | frame
  · dsimp only
    split
    · refine Yields.mono (hconfirm _ _ _ ?_) fun _ _ h disposition hd => .inl (h disposition hd)
      split <;> decide
    · intro _ h
      cases h
  · exact Yields.mono (hconfirm _ _ _ (by decide)) fun _ _ h disposition hd =>
      .inl (h disposition hd)
  · refine Yields.bind (Q := fun outcome s' => outcome = .ok none ∧ s' = { s with
      reassembly
      replay := (s.replay.get setup.config.replay (peer, fragment.transactionId) now).2 }) ?_ ?_
      fun _ _ h => by cases h.1
    · exact ⟨congrArg Except.ok hmiss, rfl⟩
    · rintro _ _ ⟨hnone, rfl⟩
      obtain rfl := Except.ok.inj hnone
      refine Yields.mono (completeRequest_serves messageId hpeer hqueue hpending hadds hcore)
        fun outcome s' h disposition hd => ?_
      rcases h disposition hd with ⟨rfl, hkeeps⟩ | hserves
      · exact .inl ⟨by decide, hkeeps⟩
      · exact .inr ⟨frame, reassembly, rfl, hserves⟩

/-! ### What a request supersedes -/

/-- What a request drops: what gives way to the message that it stored, the older responses of its
peer, and the response that its compact result replaces. -/
def requestDrops (setup : Setup) (key : TransactionKey) (request : ProtocolObject)
    (responses : List ProtocolObject)
    (events : List Message) (s : APRSAdapter) : APRSAdapter :=
  if request.isSendMessage ∧ responses = [.stored] then
    (supersedeStaleBatches key.1 key (events.foldl (routeDrops setup) s)).dropBatches key.1
      fun tx => tx.responseBatch = some key
  else supersedeStaleBatches key.1 key (events.foldl (routeDrops setup) s)

/-- Every carrier stays, and what became pending is carried. -/
def Covers (setup : Setup) (s s' : APRSAdapter) : Prop :=
  (∀ d, s.outbound.Delivers d → s'.outbound.Delivers d) ∧
    ∀ d, s'.core.Pending setup.stores d → s.core.Pending setup.stores d ∨ s'.outbound.Delivers d

theorem Adds.covers (h : Adds setup P s s') : Covers setup s s' :=
  ⟨fun _ hd => h.delivers hd, fun _ hd => h.pending hd⟩

theorem Covers.trans_ledger (h : Covers setup t s) (hkeeps : Keeps APRSAdapter.ledger s s') :
    Covers setup t s' := by
  have hadds : Adds setup (fun _ => True) s s' := .of_ledger hkeeps
  refine ⟨fun d hd => hadds.delivers (h.1 d hd), fun d hd => ?_⟩
  rcases hadds.pending hd with hd | hd
  · exact (h.2 d hd).imp_right hadds.delivers
  · exact .inr hd

/-- What was not dropped is a carrier before. -/
theorem Covers.of_dropBatches {p : BurstTx → Bool} (h : Covers setup t s) :
    Covers setup (t.dropBatches peer p) s := by
  refine ⟨fun d hd => h.1 d ?_, h.2⟩
  obtain ⟨tx, htx, hdelivery⟩ := hd
  refine ⟨tx, ?_, hdelivery⟩
  rcases List.mem_append.mp htx with htx | htx
  · exact List.mem_append_left _ (List.mem_filter.mp htx).1
  · exact List.mem_append_right _ (OrderedDict.mem_values_of_filter htx)

theorem ledger_of_outbound (hout : s'.outbound = s.outbound) (hcore : s'.core = s.core) :
    Keeps APRSAdapter.ledger s s' :=
  Prod.ext (congrArg (fun o : Outbound => (o.queue, o.active, o.nextOrder)) hout)
    (congrArg (fun core : CoreState => core.tables.deliveries) hcore)

/-- What a request leaves: all carriers but those that it drops, and carriers for the messages of
its answer. -/
structure Leaves (setup : Setup) (key : TransactionKey) (request : ProtocolObject)
    (responses : List ProtocolObject)
    (events : List Message) (s s' : APRSAdapter) : Prop where
  covers : Covers setup (requestDrops setup key request responses events s) s'
  delivers : request.isSendMessage = false → ∀ message, .message message ∈ responses →
    s'.outbound.Delivers (message.recipient, message.sequence)

section Leaves

variable {frame : Bytes} {request : ProtocolObject} {responses : List ProtocolObject}
    {events : List Message}

theorem Leaves.trans_keeps (h : Leaves setup key request responses events t s)
    (hout : s'.outbound = s.outbound)
    (hcore : s'.core = s.core) : Leaves setup key request responses events t s' :=
  ⟨h.covers.trans_ledger (ledger_of_outbound hout hcore), fun hsend message hmessage =>
    hout ▸ h.delivers hsend message hmessage⟩

theorem Serves.leaves (h : Serves setup key frame request responses events t s) :
    Leaves setup key request responses events t s := by
  refine ⟨?_, h.delivers⟩
  rw [requestDrops]
  split
  · exact h.adds.covers.of_dropBatches
  · exact h.adds.covers

/-- Acknowledging the request drops no more. -/
theorem Serves.acknowledge (h : Serves setup key frame request responses events t s) :
    (acknowledgeRequest setup key now).Yields s fun _ s' =>
      Leaves setup key request responses events t s' := by
  refine Yields.mono (acknowledgeRequest_compacts s) fun _ s' hs' => ?_
  obtain ⟨-, hcore, heffect⟩ := hs'
  rcases heffect with hout | ⟨hout, replay, hcached, hstored⟩
  · exact h.leaves.trans_keeps hout hcore
  · obtain ⟨hsend, hresponses⟩ := h.stored replay (ReplayCache.get_eq_some hcached).1 hstored
    refine ⟨?_, fun hnot => nomatch hnot.symm.trans hsend⟩
    rw [requestDrops, if_pos ⟨hsend, hresponses⟩]
    have hcarriesNone : ∀ tx, OfAnswer key responses tx →
      decide (tx.responseBatch = some key) = true →
        tx.delivery = none := by
      rintro tx (hbatch | ⟨-, hmessages⟩) hdrop
      · exact nomatch hbatch.symm.trans (of_decide_eq_true hdrop)
      · refine Option.eq_none_iff_forall_ne_some.mpr fun d hd => ?_
        obtain ⟨message, hmessage, -⟩ := hmessages d hd
        rw [hresponses, List.mem_singleton] at hmessage
        cases hmessage
    exact (h.adds.dropBatches key.1 hcarriesNone).covers.trans_ledger
      (ledger_of_outbound hout hcore)

end Leaves

/-- Forgetting the progress of a transaction concerns neither transactions nor deliveries. -/
theorem forgetProgress_keeps (p : Prop) [Decidable p] (disposition : Disposition) :
    (do
      Method.when p (modify fun s : APRSAdapter => { s with rxProgress := s.rxProgress.erase key })
      return disposition : Adapter Disposition).Moves (Keeps fun s => (s.outbound, s.core)) :=
  Moves.bind (Moves.when (Moves.modify fun _ => rfl)) fun _ => Moves.pure _

/-- What a packet of a request does: it completes one, or it drops nothing. -/
theorem receive_miss_covers {fragment : APRSFragment} {body : Str}
    (parsed : parsePacket peer body = .ok (peer, fragment)) (hqueue : s.queue = [])
      (hpending : s.pending = .empty)
    (hmiss : s.inbound.cached setup (peer, fragment.transactionId) now = none) :
    (receive setup peer body now).Yields s fun outcome s' => ∀ disposition,
      outcome = .ok disposition →
      Covers setup s s' ∨
      ∃ frame reassembly, s.reassembly.add setup.config.reassembly peer fragment now =
          (.ok (some frame), reassembly) ∧ ∃ request responses events s₁,
        Serves setup (peer, fragment.transactionId) frame request responses events s s₁ ∧
        Leaves setup (peer, fragment.transactionId) request responses events s s' := by
  obtain ⟨-, hpeer, -⟩ := parsePacket_eq_ok parsed
  rw [receive]
  simp only [parsed]
  refine Yields.bind (Q := fun outcome s₁ =>
    outcome = .ok (s.inbound.cached setup (peer, fragment.transactionId) now) ∧ s₁ = { s with
      replay := (s.replay.get setup.config.replay (peer, fragment.transactionId) now).2 })
    ⟨rfl, rfl⟩ ?_ fun _ _ h => by cases h.1
  rintro found _ ⟨hfound, rfl⟩
  rw [hmiss] at hfound
  obtain rfl := Except.ok.inj hfound
  dsimp only
  rw [receiveBurst_of_parsed parsed]
  refine Yields.modify_bind ?_
  rw [receiveCommit_of_parsed parsed]
  refine Yields.bind (receiveFragment_serves (t := s) (trailingMessageId body) hpeer hqueue hpending
    ((Inbound.cached_lookUp s.inbound).trans hmiss) (Adds.of_ledger rfl) rfl)
      (fun disposition s₁ hs₁ => ?_)
    fun _ _ _ _ h => by cases h
  rcases hs₁ disposition rfl with ⟨hnot, hkeeps⟩ | ⟨frame, reassembly, hadd, request, responses,
    events, hserves⟩
  · rw [when_false (not_or.mpr hnot), pure_bind]
    refine Yields.mono (Yields.of_moves (forgetProgress_keeps _ _)) fun _ s' hs' _ _ => .inl ?_
    obtain ⟨hout, hcore⟩ := Prod.mk.inj hs'
    have hsame : Covers setup s s₁ := (Adds.of_ledger (P := fun _ => True) hkeeps).covers
    exact hsame.trans_ledger (ledger_of_outbound hout hcore)
  · have hack : (Method.when (disposition = .completed ∨ disposition = .replayed)
        (acknowledgeRequest setup (peer, fragment.transactionId) now)).Yields s₁ fun _ s₂ =>
          Leaves setup (peer, fragment.transactionId) request responses events s s₂ := by
      rw [Method.when]
      split
      · exact hserves.acknowledge
      · exact hserves.leaves
    refine Yields.bind hack (fun _ s₂ hs₂ => ?_) fun _ _ _ _ h => by cases h
    refine Yields.mono (Yields.of_moves (forgetProgress_keeps _ _)) fun _ s' hs' _ _ => .inr ?_
    obtain ⟨hout, hcore⟩ := Prod.mk.inj hs'
    exact ⟨frame, reassembly, hadd, request, responses, events, s₁, hserves,
      hs₂.trans_keeps hout hcore⟩

/-- What a packet of a request does whose result is in the cache. -/
theorem receive_hit_covers {fragment : APRSFragment} {body : Str} {replay : Replay}
    (parsed : parsePacket peer body = .ok (peer, fragment))
    (hhit : s.inbound.cached setup (peer, fragment.transactionId) now = some replay) :
    (receive setup peer body now).Yields s fun _ s' => Covers setup s s' ∨
      replay.isStoredSend = .ok true ∧ Covers setup
        (s.dropBatches peer fun tx => tx.responseBatch = some (peer, fragment.transactionId))
          s' := by
  have hsame : ∀ s : APRSAdapter, Covers setup s s :=
    fun s => (refl_of (Adds setup fun _ => True) s).covers
  rw [receive]
  simp only [parsed]
  refine Yields.bind (Q := fun outcome s₁ =>
    outcome = .ok (s.inbound.cached setup (peer, fragment.transactionId) now) ∧ s₁ = { s with
      replay := (s.replay.get setup.config.replay (peer, fragment.transactionId) now).2 })
    ⟨rfl, rfl⟩ ?_ fun _ _ h => by cases h.1
  rintro found _ ⟨hfound, rfl⟩
  rw [hhit] at hfound
  obtain rfl := Except.ok.inj hfound
  have hack : ∀ s₁ : APRSAdapter, s₁.outbound = s.outbound → s₁.core = s.core →
      s₁.inbound.cached setup (peer, fragment.transactionId) now = some replay →
      (acknowledgeRequest setup (peer, fragment.transactionId) now).Yields s₁ fun _ s' =>
        Covers setup s s' ∨
        replay.isStoredSend = .ok true ∧ Covers setup
          (s.dropBatches peer fun tx => tx.responseBatch = some (peer, fragment.transactionId))
            s' := by
    intro s₁ hout₁ hcore₁ hcached₁
    refine Yields.mono (acknowledgeRequest_compacts s₁) fun _ s' hs' => ?_
    obtain ⟨-, hcore, heffect⟩ := hs'
    rcases heffect with hout | ⟨hout, replay', hcached, hstored⟩
    · exact .inl ((hsame s).trans_ledger (ledger_of_outbound (hout.trans hout₁)
        (hcore.trans hcore₁)))
    · obtain rfl := Option.some.inj (hcached₁.symm.trans hcached)
      refine .inr ⟨hstored, (hsame _).trans_ledger
        (ledger_of_outbound (hout.trans ?_) (hcore.trans hcore₁))⟩
      exact congrArg (fun o : Outbound => { o with
        queue := o.queue.filter fun tx => !decide
          (tx.responseBatch = some (peer, fragment.transactionId))
        active := o.active.filter fun e =>
          !(e.1 = peer && decide (e.2.responseBatch = some (peer, fragment.transactionId))) }) hout₁
  refine Yields.modify_bind (Yields.bind (hack _ rfl rfl ?_) (fun _ s₂ hs₂ => hs₂)
    fun _ _ hs₂ => hs₂)
  exact (Inbound.cached_lookUp s.inbound).trans hhit

end OpenQSP
