import OpenQSP.Aprs.AtMostOnce
import OpenQSP.Aprs.Dispositions
import OpenQSP.Aprs.Queueing

/-!
# The responses of a request

The responses to a request are queued one after another, and each of them may find the queue full.
What was queued before that stays.

## Main definitions

* `APRSAdapter.Fits` — there is room for some responses
* `WholeBatch`, `FitsWhole` — all or none

## Main results

* `accepts_iff`, `queueResponses_queued`
* `receive_queued` — a call of `receive` that executes a request
* **`responses_whole_iff`**
-/

namespace OpenQSP

open APRSAdapter Method Py

variable {setup : Setup} {peer : Str} {key : TransactionKey} {frame : Bytes} {s : APRSAdapter}
    {now : ℚ}

/-! ### Room -/

/-- There are enough free ids of the peer for the responses, and their fragments fit into the
queue. -/
structure APRSAdapter.Fits (setup : Setup) (peer : Str) (responses : List Bytes) (s : APRSAdapter) :
    Prop where
  ids : (s.transactionsOf peer).length + responses.length ≤ 256
  fragments : s.queuedCount + s.pendingCount + (responses.map fragmentCount).sum ≤
    setup.config.queueCapacity

theorem transactionId_of_fragmentFrameV2 {transactionId : Str} {fragments : List APRSFragment}
    (h : fragmentFrameV2 frame transactionId = .ok fragments) :
    ∃ value < 256, transactionId = base36Digits 3 value := by
  obtain ⟨byte, hbyte, -⟩ := bind_eq_ok.mp h
  obtain ⟨value, hvalue, hbyte⟩ := bind_eq_ok.mp hbyte
  obtain ⟨_, hle, -⟩ := bind_eq_ok.mp hbyte
  rw [raiseIf_eq_ok, not_lt] at hle
  have hlt : value < 256 := Nat.lt_succ_of_le hle
  have hname := (transactionByte_eq hvalue hle).2
  rw [UInt8.toNat_ofNat_of_lt' hlt, base36_ok (hlt.trans (by decide))] at hname
  exact ⟨value, hlt, (Except.ok.inj hname).symm⟩

/-- The ids of the transactions to a peer are different ones of the 256 that there are. -/
theorem Outbound.Sound.transactionIds (h : s.outbound.Sound setup) (peer : Str) :
    ((s.transactionsOf peer).map (·.transactionId)).Nodup ∧
      ∀ id ∈ (s.transactionsOf peer).map (·.transactionId), ∃ value < 256,
        id = base36Digits 3 value := by
  constructor
  · have hids : ((s.burstQueue ++ s.burstActive.values).map fun tx =>
      (tx.peer, tx.transactionId)).Nodup := by
      have hids := h.ids
      rwa [Outbound.parcels, List.map_map] at hids
    refine (List.nodup_map_iff_inj_on (hids.of_map.filter _)).mpr fun tx htx tx' htx' heq => ?_
    obtain ⟨htx, hpeer⟩ := List.mem_filter.mp htx
    obtain ⟨htx', hpeer'⟩ := List.mem_filter.mp htx'
    refine List.inj_on_of_nodup_map hids htx htx' (Prod.ext ?_ heq)
    exact (of_decide_eq_true hpeer).trans (of_decide_eq_true hpeer').symm
  · intro id hid
    obtain ⟨tx, htx, rfl⟩ := List.mem_map.mp hid
    obtain ⟨hfragments, -⟩ := h.carries _ (List.mem_map_of_mem (List.mem_filter.mp htx).1)
    exact transactionId_of_fragmentFrameV2 hfragments

theorem id_free_iff (h : s.outbound.Sound setup) :
    (∃ value < 256, base36Digits 3 value ∉ s.activeTransactions peer) ↔
      (s.transactionsOf peer).length < 256 := by
  obtain ⟨hnodup, hvalid⟩ := h.transactionIds peer
  have hcard : (s.idsInUse peer).card = (s.transactionsOf peer).length := by
    rw [idsInUse, List.toFinset_card_of_nodup hnodup, List.length_map]
  rw [← hcard]
  constructor
  · rintro ⟨value, hvalue, hfree⟩
    rw [mem_activeTransactions_iff h] at hfree
    have hsub : insert (base36Digits 3 value) (s.idsInUse peer) ⊆ (Finset.range 256).image
      (base36Digits 3) := by
      intro id hid
      rcases Finset.mem_insert.mp hid with rfl | hid
      · exact Finset.mem_image_of_mem _ (Finset.mem_range.mpr hvalue)
      · obtain ⟨value', hvalue', rfl⟩ := hvalid id (List.mem_toFinset.mp hid)
        exact Finset.mem_image_of_mem _ (Finset.mem_range.mpr hvalue')
    calc (s.idsInUse peer).card < (insert (base36Digits 3 value) (s.idsInUse peer)).card := by
          rw [Finset.card_insert_of_notMem hfree]
          exact Nat.lt_succ_self _
      _ ≤ ((Finset.range 256).image (base36Digits 3)).card := Finset.card_le_card hsub
      _ ≤ 256 := Finset.card_image_le.trans_eq (Finset.card_range 256)
  · intro hlt
    by_contra hnone
    push Not at hnone
    refine absurd (card_of_all_ids fun value hvalue => ?_) (not_le.mpr hlt)
    exact (mem_activeTransactions_iff h).mp (hnone value hvalue)

/-- A frame is accepted exactly if there is room for it. -/
theorem accepts_iff (h : s.outbound.Sound setup) (hdecodes : ∃ decoded,
    decodeFrameWithFlags frame = .ok decoded) :
    s.Accepts setup peer frame ↔ s.Fits setup peer [frame] := by
  constructor
  · rintro ⟨-, hfree, hfits⟩
    exact ⟨(id_free_iff h).mp hfree, by simpa using hfits⟩
  · rintro ⟨hids, hfits⟩
    exact ⟨hdecodes, (id_free_iff h).mpr hids, by simpa using hfits⟩

/-! ### The loop -/

/-- The transactions carry the responses to the peer, in their order. -/
def Carry (peer : Str) (responses : List Bytes) (txs : List BurstTx) : Prop :=
  List.Forall₂ (fun response tx => tx.peer = peer ∧
    fragmentFrameV2 response tx.transactionId = .ok tx.fragments) responses txs

/-- The transactions carry all responses, or there are none. -/
def WholeBatch (peer : Str) (responses : List Bytes) (txs : List BurstTx) : Prop :=
  txs = [] ∨ Carry peer responses txs

/-- There is room for all responses, or not even for the first one. -/
def APRSAdapter.FitsWhole (setup : Setup) (peer : Str) (responses : List Bytes)
    (s : APRSAdapter) : Prop :=
  s.Fits setup peer responses ∨ ∀ first ∈ responses.head?, ¬s.Fits setup peer [first]

/-- The first responses have been queued, as many as there was room for. -/
structure QueuedBatch (setup : Setup) (key : TransactionKey) (responses : List Bytes)
    (s s' : APRSAdapter)
    (queued : List BurstTx) : Prop where
  queue_eq : s'.burstQueue = s.burstQueue ++ queued
  fresh : ∀ tx ∈ queued, s.burstOrder ≤ tx.order ∧ tx.responseBatch = some key
  carry : Carry key.1 (responses.take queued.length) queued
  all_iff : queued.length = responses.length ↔ s.Fits setup key.1 responses
  none_iff : ∀ first ∈ responses.head?, queued = [] ↔ ¬s.Fits setup key.1 [first]

theorem QueuedBatch.whole_iff {responses : List Bytes} {s' : APRSAdapter} {queued : List BurstTx}
    (h : QueuedBatch setup key responses s s' queued) :
    WholeBatch key.1 responses queued ↔ s.FitsWhole setup key.1 responses := by
  constructor
  · rintro (hnil | hcarry)
    · exact .inr fun first hfirst => (h.none_iff first hfirst).mp hnil
    · exact .inl (h.all_iff.mp (List.Forall₂.length_eq hcarry).symm)
  · rintro (hfits | hnone)
    · have hcarry := h.carry
      rw [h.all_iff.mpr hfits, List.take_length] at hcarry
      exact .inr hcarry
    · cases responses with
      | nil =>
        have hcarry := h.carry
        rw [List.take_nil] at hcarry
        exact .inl (List.forall₂_nil_left_iff.mp hcarry)
      | cons first responses => exact .inl ((h.none_iff first rfl).mpr (hnone first rfl))

/-- One response takes one id and its fragments. -/
theorem fits_cons {response : Bytes} {responses : List Bytes} {s' : APRSAdapter}
    (hids : (s'.transactionsOf peer).length = (s.transactionsOf peer).length + 1)
    (hload : s'.queuedCount + s'.pendingCount = s.queuedCount + s.pendingCount + fragmentCount
      response) :
    s.Fits setup peer (response :: responses) ↔ s'.Fits setup peer responses := by
  constructor
  · rintro ⟨hids', hfits⟩
    rw [List.length_cons] at hids'
    rw [List.map_cons, List.sum_cons] at hfits
    exact ⟨by omega, by omega⟩
  · rintro ⟨hids', hfits⟩
    refine ⟨?_, ?_⟩
    · rw [List.length_cons]
      omega
    · rw [List.map_cons, List.sum_cons]
      omega

theorem fits_nil (h : s.outbound.Sound setup) : s.Fits setup peer [] := by
  obtain ⟨hnodup, hvalid⟩ := h.transactionIds peer
  refine ⟨?_, ?_⟩
  · have hsub : ((s.transactionsOf peer).map (·.transactionId)).toFinset ⊆
        (Finset.range 256).image (base36Digits 3) := by
      intro id hid
      obtain ⟨value, hvalue, rfl⟩ := hvalid id (List.mem_toFinset.mp hid)
      exact Finset.mem_image_of_mem _ (Finset.mem_range.mpr hvalue)
    have hcard := (Finset.card_le_card hsub).trans
      (Finset.card_image_le.trans_eq (Finset.card_range 256))
    rwa [List.toFinset_card_of_nodup hnodup, List.length_map] at hcard
  · rw [queuedCount_add_pendingCount]
    exact h.load

/-- What `queue_frame` appends takes one id and its fragments. -/
theorem queued_counts {tx : BurstTx} {s' : APRSAdapter} (hpeer : tx.peer = peer)
    (hqueue : s'.burstQueue = s.burstQueue ++ [tx]) (hactive : s'.burstActive = s.burstActive) :
    (s'.transactionsOf peer).length = (s.transactionsOf peer).length + 1 ∧
      s'.queuedCount + s'.pendingCount = s.queuedCount + s.pendingCount + tx.fragments.length := by
  constructor
  · rw [transactionsOf, transactionsOf, hqueue, hactive]
    simp only [List.filter_append, List.length_append]
    rw [List.filter_singleton, decide_eq_true hpeer, cond_true, List.length_singleton]
    omega
  · rw [queuedCount, pendingCount, queuedCount, pendingCount, hqueue, hactive, List.map_append,
      List.sum_append,
      List.map_singleton, List.sum_singleton]
    omega

theorem queueResponses_queued (hpeer : validatePeer key.1 = .ok key.1) (supersedable : Bool)
    {responses : List Bytes} (s : APRSAdapter) (hsound : s.outbound.Sound setup)
    (h : Answered setup responses s.core) :
    (queueResponses setup key supersedable responses).Yields s fun _ s' =>
      s'.burstActive = s.burstActive ∧ ∃ queued, QueuedBatch setup key responses s s' queued := by
  induction responses generalizing s with
  | nil =>
    refine ⟨rfl, [], (List.append_nil _).symm, fun _ htx => absurd htx List.not_mem_nil, .nil, ?_,
      fun first hfirst => ?_⟩
    swap
    · cases hfirst
    exact ⟨fun _ => fits_nil hsound, fun _ => rfl⟩
  | cons response responses ih =>
    obtain ⟨object, hdecode, hmark⟩ := h response List.mem_cons_self
    have hdecodes : ∃ decoded, decodeFrameWithFlags response = .ok decoded :=
      ⟨_, decodeFrameWithFlags_of_decodeFrame hdecode⟩
    have hfirst : s.Fits setup key.1 (response :: responses) → s.Fits setup key.1 [response] := by
      rintro ⟨hids, hfits⟩
      rw [List.length_cons] at hids
      rw [List.map_cons, List.sum_cons] at hfits
      refine ⟨?_, ?_⟩
      · rw [List.length_singleton]
        omega
      · rw [List.map_singleton, List.sum_singleton]
        omega
    refine Yields.bind (Q := fun outcome s₁ => s₁.burstActive = s.burstActive ∧
      (∀ u, outcome = .ok u → s.Fits setup key.1 [response] ∧ s₁.outbound.Sound setup ∧
        s₁.core.messages = s.core.messages ∧ s₁.burstOrder = s.burstOrder + 1 ∧
        ∃ tx, s₁.burstQueue = s.burstQueue ++ [tx] ∧ tx.order = s.burstOrder ∧
          tx.responseBatch = some key ∧
          tx.peer = key.1 ∧ fragmentFrameV2 response tx.transactionId = .ok tx.fragments) ∧
      ∀ e, outcome = .error e → ¬s.Fits setup key.1 [response] ∧ s₁.burstQueue = s.burstQueue) ?_
      (fun _ s₁ hs₁ => ?_) fun e s₁ hs₁ => ?_
    · refine Yields.ofExcept_bind (fun delivery hdelivery => ?_) fun e he => ?_
      swap
      · rw [deliveryOf, hdecode] at he
        cases he
      refine Yields.bind (Yields.and (queueFrame_spec hpeer s) (Yields.and
        (Yields.of_moves (queueFrame_keepsMessages response _))
          (Yields.of_moves (queueFrame_changes response _))))
        (fun _ s₁ hs₁ => ?_) fun e s₁ hs₁ => ?_
      · obtain ⟨⟨hok, -⟩, hmessages, hchanges⟩ := hs₁
        obtain ⟨haccepts, tx, next, htx, rfl⟩ := hok _ rfl
        have hsound₁ := hsound.trace hchanges.quiet
        have hmarked := markPending_returns hdecode hdelivery fun message hmessage =>
          (hmark message hmessage).of_messages hmessages
        refine Yields.mono (Yields.and (Yields.of_outcome hmarked) (Yields.and (Yields.of_moves
          (markDelivery_keepsOutbound _ delivery)) (Yields.of_moves
          (markDelivery_keepsMessages delivery)))) fun outcome s₂ hs₂ => ?_
        obtain ⟨rfl, hout, hmessages₂⟩ := hs₂
        refine ⟨congrArg Outbound.active hout, fun _ _ =>
          ⟨(accepts_iff hsound hdecodes).mp haccepts, ?_,
          Eq.trans hmessages₂ hmessages, congrArg Outbound.nextOrder hout, tx,
            congrArg Outbound.queue hout,
          htx.order_eq, htx.responseBatch_eq, htx.peer_eq, htx.fragments_eq⟩,
          fun _ h => by cases h⟩
        rw [show s₂.outbound = _ from hout]
        exact hsound₁
      · obtain ⟨⟨-, herror⟩, -⟩ := hs₁
        obtain ⟨hnot, next, rfl⟩ := herror e rfl
        exact ⟨rfl, (fun _ h => by cases h), fun _ _ =>
          ⟨fun hfits => hnot ((accepts_iff hsound hdecodes).mpr hfits), rfl⟩⟩
    · obtain ⟨hactive, hok, -⟩ := hs₁
      obtain ⟨hfits, hsound₁, hmessages, horder, tx, hqueue, htxorder, hbatch, htxpeer,
        hfragments⟩ := hok _ rfl
      obtain ⟨hids, hload⟩ := queued_counts htxpeer hqueue hactive
      rw [length_of_fragmentFrameV2 hfragments] at hload
      have hrest : Answered setup responses s.core := fun r hr => h r (List.mem_cons_of_mem _ hr)
      refine Yields.mono (ih s₁ hsound₁ (hrest.of_messages hmessages)) fun _ s' hs' => ?_
      obtain ⟨hactive', queued, hqueued⟩ := hs'
      refine ⟨hactive'.trans hactive, tx :: queued, ?_, fun tx' htx' => ?_, ?_, ?_,
        fun first hmem => ?_⟩
      · rw [hqueued.queue_eq, hqueue, List.append_assoc]
        rfl
      · rcases List.mem_cons.mp htx' with rfl | htx'
        · exact ⟨htxorder.ge, hbatch⟩
        · obtain ⟨hle, hbatch'⟩ := hqueued.fresh tx' htx'
          exact ⟨by omega, hbatch'⟩
      · exact .cons ⟨htxpeer, hfragments⟩ hqueued.carry
      · rw [fits_cons hids hload, ← hqueued.all_iff, List.length_cons, List.length_cons,
          Nat.add_right_cancel_iff]
      · obtain rfl := Option.some.inj hmem
        exact ⟨fun h => absurd h (List.cons_ne_nil _ _), fun hnot => absurd hfits hnot⟩
    · obtain ⟨hactive, -, herror⟩ := hs₁
      obtain ⟨hnot, hqueue⟩ := herror e rfl
      refine ⟨hactive, [], by rw [hqueue, List.append_nil], fun _ htx =>
        absurd htx List.not_mem_nil, .nil, ?_,
        fun first hmem => ?_⟩
      · refine ⟨fun h => ?_, fun hfits => absurd (hfirst hfits) hnot⟩
        cases h
      · obtain rfl := Option.some.inj hmem
        exact ⟨fun _ => hnot, fun _ => rfl⟩

/-! ### Core's part -/

/-- Only a `SEND_MESSAGE` has events. -/
theorem dispatch_events {stores : Stores} {clock : ℤ} {callsign : Str} {request : ProtocolObject}
    {t : Tables}
    (h : request.isSendMessage = false) {result : List ProtocolObject × List Message}
    (hrun : ((dispatch stores clock callsign request).run t).1 = .ok result) : result.2 = [] := by
  have hquiet : ∀ {m : Method PyError Tables (List ProtocolObject)},
      ((do return (← m, []) : Method PyError Tables (List ProtocolObject × List Message)).run t).1 =
        .ok result → result.2 = [] := by
    intro m hm
    rw [run_bind_pure] at hm
    cases hm' : (m.run t).1 with
    | error e =>
      rw [hm'] at hm
      cases hm
    | ok responses =>
      rw [hm'] at hm
      exact (Except.ok.inj hm) ▸ rfl
  have hpure : ∀ {responses : List ProtocolObject},
      ((pure (responses, []) : Method PyError Tables
        (List ProtocolObject × List Message)).run t).1 =
        .ok result → result.2 = [] := fun hm => (Except.ok.inj hm) ▸ rfl
  cases request with
  | sendMessage _ => cases h
  | getMessage _ => exact hquiet hrun
  | getNewMessages _ => exact hquiet hrun
  | getNewBulletins _ => exact hquiet hrun
  | getBulletin _ => exact hquiet hrun
  | _ => exact hpure hrun

/-- A `SEND_MESSAGE` has one response. -/
theorem dispatch_one {stores : Stores} {clock : ℤ} {callsign : Str} {request : ProtocolObject}
    {t : Tables}
    (h : request.isSendMessage = true) {result : List ProtocolObject × List Message}
    (hrun : ((dispatch stores clock callsign request).run t).1 = .ok result) :
      result.1.length = 1 := by
  cases request with
  | sendMessage request =>
    rcases handleSendMessage_cases (show (handleSendMessage stores clock callsign request).run t =
      (.ok (result.1, result.2), _) from Prod.ext hrun rfl) with ⟨hone, -⟩ | ⟨⟨_, hone⟩, -⟩
    · rw [hone, List.length_singleton]
    · rw [hone, List.length_singleton]
  | _ => cases h

/-- The queue, the active transactions and the next number. -/
def APRSAdapter.bursts (s : APRSAdapter) : List BurstTx × OrderedDict Str BurstTx × ℕ :=
  (s.burstQueue, s.burstActive, s.burstOrder)

abbrev KeepsBursts {α : Type} (m : Adapter α) : Prop := m.Moves (Keeps APRSAdapter.bursts)

theorem KeepsOutbound.bursts {α : Type} {m : Adapter α} (h : KeepsOutbound m) : KeepsBursts m :=
  h.mono fun _ _ h => congrArg (fun o : Outbound => (o.queue, o.active, o.nextOrder)) h

theorem reportDelivery_keepsBursts (order : Option ℕ) (delivered : Bool)
    (delivery : Option Delivery) :
    KeepsBursts (reportDelivery setup order delivered delivery) :=
  (reportDelivery_unreported _ order delivered delivery).mono fun _ _ h =>
    congrArg (fun o : Outbound => (o.queue, o.active, o.nextOrder)) h

theorem reconcileRequest_keepsBursts (callsign : Str) (request : ProtocolObject) :
    KeepsBursts (reconcileRequest setup peer callsign request) := by
  cases request with
  | getNewMessages request =>
    refine Moves.get_bind fun s => Moves.bind (Moves.modify fun _ => rfl) fun _ => ?_
    exact Moves.forM fun _ _ => reportDelivery_keepsBursts _ _ _
  | _ => exact Moves.pure _

/-- Only transactions without a batch are queued, and the numbers go up. -/
def AddsNoResponses (s s' : APRSAdapter) : Prop :=
  s.burstOrder ≤ s'.burstOrder ∧ ∀ tx ∈ s'.burstQueue, tx ∈ s.burstQueue ∨ tx.responseBatch = none

instance : IsPreorder APRSAdapter AddsNoResponses where
  refl _ := ⟨le_rfl, fun _ => .inl⟩
  trans _ _ _ h h' := ⟨h.1.trans h'.1, fun tx htx => (h'.2 tx htx).elim (h.2 tx) .inr⟩

theorem AddsNoResponses.of_bursts {s s' : APRSAdapter} (h : Keeps APRSAdapter.bursts s s') :
    AddsNoResponses s s' := by
  obtain ⟨hqueue, -, horder⟩ : s'.burstQueue = s.burstQueue ∧ s'.burstActive = s.burstActive ∧
    s'.burstOrder = s.burstOrder := by simpa [Keeps, APRSAdapter.bursts] using h
  exact ⟨horder.ge, fun tx htx => .inl (hqueue ▸ htx)⟩

theorem makeRoom_addsNoResponses (options : QueueOptions) (s : APRSAdapter) :
    AddsNoResponses s (makeRoom peer options s) := by
  rw [makeRoom, supersedeForProactive]
  repeat' split
  all_goals first
    | exact refl_of AddsNoResponses s
    | exact ⟨le_rfl, fun tx htx => .inl (List.mem_filter.mp htx).1⟩

theorem queueFrame_addsNoResponses {options : QueueOptions} (h : options.responseBatch = none) :
    (queueFrame setup peer frame options).Moves AddsNoResponses := by
  intro s
  cases hpeer : validatePeer peer with
  | error e =>
    rw [queueFrame, hpeer]
    exact refl_of AddsNoResponses s
  | ok peer' =>
    have hroom : AddsNoResponses s (makeRoom peer options s) := makeRoom_addsNoResponses options s
    obtain ⟨hok, herror⟩ : (queueFrame setup peer frame options).Yields s _ :=
      queueFrame_spec hpeer s
    cases houtcome : ((queueFrame setup peer frame options).run s).1 with
    | ok transactionId =>
      obtain ⟨-, tx, next, htx, hs'⟩ := hok transactionId houtcome
      rw [hs']
      refine trans_of AddsNoResponses hroom ⟨Nat.le_succ _, fun tx' htx' => ?_⟩
      rcases List.mem_append.mp htx' with htx' | htx'
      · exact .inl htx'
      · obtain rfl := List.mem_singleton.mp htx'
        exact .inr (htx.responseBatch_eq.trans h)
    | error e =>
      obtain ⟨-, next, hs'⟩ := herror e houtcome
      rw [hs']
      exact trans_of AddsNoResponses hroom ⟨le_rfl, fun _ => .inl⟩

theorem executeFrame_addsNoResponses (callsign : Str) :
    (executeFrame setup key callsign frame).Moves AddsNoResponses := by
  have hcore : ∀ {α : Type} (m : Method PyError CoreState α), (onCore m).Moves AddsNoResponses :=
    fun m =>
    (onCore_keepsOutbound m).bursts.mono fun _ _ => .of_bursts
  have hdispatch : ∀ callsign request, (dispatchRouted setup callsign request).Moves
    AddsNoResponses := by
    intro callsign request
    refine Moves.get_bind fun s => Moves.bind (hcore _) fun result => ?_
    refine Moves.bind (Moves.forM fun message _ =>
      Moves.ite (Moves.catchError ?_ fun _ => Moves.pure _)
      (Moves.pure _)) fun _ => Moves.pure _
    refine Moves.get_bind fun s => Moves.bind (Moves.ofExcept _) fun endpoint => ?_
    cases endpoint with
    | none => exact Moves.pure _
    | some endpoint =>
      refine Moves.bind (Moves.ofExcept _) fun _ => ?_
      exact Moves.bind (queueFrame_addsNoResponses rfl) fun _ => hcore _
  exact fun s => handleFrame_moves hdispatch callsign frame s

/-- A request without events changes no transaction. -/
theorem executeFrame_keepsBursts {request : ProtocolObject}
    (hdecode : decodeFrame frame = .ok request)
    (hsend : request.isSendMessage = false) (callsign : Str) :
    KeepsBursts (executeFrame setup key callsign frame) := by
  have hdispatch : KeepsBursts (dispatchRouted setup callsign request) := by
    intro s
    show Yields _ s fun _ s' => Keeps APRSAdapter.bursts s s'
    refine Yields.get_bind (Yields.bind (Q := fun outcome s₁ => Keeps APRSAdapter.bursts s s₁ ∧
      ∀ result, outcome = .ok result → result.2 = []) ⟨rfl, fun result h => dispatch_events hsend h⟩
      (fun result s₁ hs₁ => ?_) fun _ _ h => h.1)
    obtain ⟨hkeeps, hevents⟩ := hs₁
    obtain ⟨responses, events⟩ := result
    obtain rfl : events = [] := hevents _ rfl
    exact hkeeps
  intro s
  have hframe : KeepsBursts (handleFrame (dispatchRouted setup) callsign frame) := by
    rw [handleFrame, hdecode]
    exact Moves.bind hdispatch fun _ => Moves.ofExcept _
  exact hframe s

/-! ### Finishing a request -/

theorem bursts_inj {s s' : APRSAdapter} (h : Keeps APRSAdapter.bursts s s') :
    s'.burstQueue = s.burstQueue ∧ s'.burstActive = s.burstActive ∧
      s'.burstOrder = s.burstOrder := by
  obtain ⟨hqueue, h⟩ := Prod.mk.inj h
  exact ⟨hqueue, Prod.mk.inj h⟩

theorem fits_congr {responses : List Bytes} {s s' : APRSAdapter}
    (h : Keeps APRSAdapter.bursts s s') :
    s'.Fits setup peer responses ↔ s.Fits setup peer responses := by
  obtain ⟨hqueue, hactive, -⟩ := bursts_inj h
  have htransactions : s'.transactionsOf peer = s.transactionsOf peer := by
    rw [transactionsOf, transactionsOf, hqueue, hactive]
  have hload : s'.queuedCount + s'.pendingCount = s.queuedCount + s.pendingCount := by
    rw [queuedCount, pendingCount, queuedCount, pendingCount, hqueue, hactive]
  constructor
  · rintro ⟨hids, hfits⟩
    exact ⟨htransactions ▸ hids, hload ▸ hfits⟩
  · rintro ⟨hids, hfits⟩
    exact ⟨htransactions.symm ▸ hids, hload.symm ▸ hfits⟩

theorem fitsWhole_congr {responses : List Bytes} {s s' : APRSAdapter}
    (h : Keeps APRSAdapter.bursts s s') :
    s'.FitsWhole setup peer responses ↔ s.FitsWhole setup peer responses := by
  rw [FitsWhole, FitsWhole, fits_congr h]
  exact or_congr_right (forall₂_congr fun _ _ => not_congr (fits_congr h))

/-- A single response fits or does not. -/
theorem fitsWhole_of_le_one {responses : List Bytes} (h : responses.length ≤ 1) :
    s.FitsWhole setup peer responses := by
  match responses, h with
  | [], _ => exact .inr nofun
  | [response], _ =>
    by_cases hfits : s.Fits setup peer [response]
    · exact .inl hfits
    · exact .inr fun first hfirst => Option.some.inj hfirst ▸ hfits

theorem supersede_congr {s s' : APRSAdapter} (h : Keeps APRSAdapter.bursts s s') :
    Keeps APRSAdapter.bursts (supersedeStaleBatches peer key s)
      (supersedeStaleBatches peer key s') := by
  obtain ⟨hqueue, hactive, horder⟩ := bursts_inj h
  have heq : (supersedeStaleBatches peer key s').bursts = (supersedeStaleBatches peer key { s with
      burstQueue := s'.burstQueue
      burstActive := s'.burstActive
      burstOrder := s'.burstOrder }).bursts := rfl
  rw [Keeps, heq, hqueue, hactive, horder]

/-- The transactions of the batch that are as new as `order`. -/
def APRSAdapter.newResponses (order : ℕ) (key : TransactionKey) (s : APRSAdapter) : List BurstTx :=
  s.burstQueue.filter fun tx => order ≤ tx.order ∧ tx.responseBatch = some key

/-- After superseding, the responses of a request are the only new ones of their batch. -/
theorem finishRequest_queued {messageId : Option Str} {callsign : Str} {request : ProtocolObject}
    {responses : List Bytes} {order : ℕ} (hpeer : validatePeer key.1 = .ok key.1)
    (hcallsign : normalizeCallsign key.1 "APRS source" = .ok callsign)
      (hsound : s.outbound.Sound setup)
    (h : Answered setup responses s.core) (hone : request.isSendMessage = true →
      responses.length ≤ 1)
    (horder : order ≤ s.burstOrder) (hnone : s.newResponses order key = []) :
    (finishRequest setup key messageId callsign request frame responses now).Yields s fun _ s' =>
      WholeBatch key.1 responses (s'.newResponses order key) ↔
        (supersedeStaleBatches key.1 key s).FitsWhole setup key.1 responses := by
  refine Yields.bind (Yields.and (Yields.of_outcome (activateAprs_returns hcallsign h.decodes s))
    (Yields.and (Yields.of_moves (activateAprs_keepsMessages responses))
      (Yields.of_moves (activateAprs_keepsOutbound responses)))) (fun _ s₁ hs₁ => ?_) fun _ _ h =>
        absurd h.1 nofun
  obtain ⟨-, hmessages, hout⟩ := hs₁
  refine Yields.modify_bind (Yields.modify_bind (Yields.modify_bind ?_))
  generalize hs₂ : noteCompleted setup key callsign now _ = s₂
  have hout₂ : s₂.outbound = (supersedeStaleBatches key.1 key s₁).outbound := by
    rw [← hs₂]
    rfl
  have hbursts : Keeps APRSAdapter.bursts (supersedeStaleBatches key.1 key s) s₂ := by
    have hbursts₁ : Keeps APRSAdapter.bursts s s₁ :=
      congrArg (fun o : Outbound => (o.queue, o.active, o.nextOrder)) hout
    exact Eq.trans (congrArg (fun o : Outbound => (o.queue, o.active, o.nextOrder)) hout₂)
      (supersede_congr hbursts₁)
  have hsound₂ : s₂.outbound.Sound setup := by
    rw [hout₂]
    have hsound₁ : s₁.outbound.Sound setup := (show s₁.outbound = s.outbound from hout) ▸ hsound
    exact hsound₁.trace (Changes.supersedeStaleBatches s₁).quiet
  have hnone₂ : s₂.newResponses order key = [] := by
    refine List.eq_nil_iff_forall_not_mem.mpr fun tx htx => ?_
    obtain ⟨hmem, hnew⟩ := List.mem_filter.mp htx
    rw [(bursts_inj hbursts).1] at hmem
    have hold : tx ∈ s.newResponses order key :=
      List.mem_filter.mpr ⟨(List.mem_filter.mp hmem).1, hnew⟩
    rw [hnone] at hold
    exact absurd hold List.not_mem_nil
  rw [← fitsWhole_congr hbursts]
  split
  · next hsend =>
    have hwhole : WholeBatch key.1 responses (s₂.newResponses order key) ↔
      s₂.FitsWhole setup key.1 responses :=
      iff_of_true (.inl hnone₂) (fitsWhole_of_le_one (hone hsend.1))
    refine Yields.ofExcept_bind (fun accepted _ => ?_) fun _ _ => hwhole
    have hkeep : ∀ s₃ : APRSAdapter, Keeps APRSAdapter.outbound s₂ s₃ →
        (WholeBatch key.1 responses (s₃.newResponses order key) ↔
          s₂.FitsWhole setup key.1 responses) := by
      intro s₃ hs₃
      rw [newResponses, show s₃.burstQueue = s₂.burstQueue from congrArg Outbound.queue hs₃]
      exact hwhole
    exact Yields.bind_of_moves (confirmInbound_keepsOutbound _ _) (fun _ s₃ hs₃ => hkeep s₃ hs₃)
      fun _ s₃ hs₃ => hkeep s₃ hs₃
  · have hmessages₂ : s₂.core.messages = s.core.messages := by
      rw [← hs₂]
      exact hmessages
    have hqueued : ∀ s₃ : APRSAdapter, (s₃.burstActive = s₂.burstActive ∧
        ∃ queued, QueuedBatch setup key responses s₂ s₃ queued) →
        (WholeBatch key.1 responses (s₃.newResponses order key) ↔
          s₂.FitsWhole setup key.1 responses) := by
      rintro s₃ ⟨-, queued, hqueued⟩
      have hnew : s₃.newResponses order key = queued := by
        have hfresh : ∀ tx ∈ queued, (decide (order ≤ tx.order ∧ tx.responseBatch = some key)) =
          true := by
          intro tx htx
          obtain ⟨hle, hbatch⟩ := hqueued.fresh tx htx
          rw [(bursts_inj hbursts).2.2] at hle
          exact decide_eq_true ⟨horder.trans hle, hbatch⟩
        rw [newResponses, hqueued.queue_eq, List.filter_append, List.filter_eq_self.mpr hfresh]
        exact congrArg (· ++ queued) hnone₂
      rw [hnew]
      exact hqueued.whole_iff
    exact Yields.bind (queueResponses_queued hpeer _ s₂ hsound₂ (h.of_messages hmessages₂))
      (fun _ s₃ hs₃ => hqueued s₃ hs₃) fun _ s₃ hs₃ => hqueued s₃ hs₃

/-! ### A call of `receive` -/

theorem newResponses_eq_nil (hsound : s.outbound.Sound setup) {s' : APRSAdapter}
    (h : AddsNoResponses s s') :
    s'.newResponses s.burstOrder key = [] := by
  refine List.eq_nil_iff_forall_not_mem.mpr fun tx htx => ?_
  obtain ⟨hmem, hnew⟩ := List.mem_filter.mp htx
  obtain ⟨hle, hbatch⟩ := of_decide_eq_true hnew
  rcases h.2 tx hmem with hold | hbatchless
  · have hlt := hsound.order_lt _ (List.mem_map_of_mem (List.mem_append_left _ hold))
    exact absurd hle (not_le.mpr hlt)
  · exact nomatch hbatchless.symm.trans hbatch

/-- Core answers a `SEND_MESSAGE` with one frame. -/
theorem executeFrame_one {request : ProtocolObject} (hdecode : decodeFrame frame = .ok request)
    (hsend : request.isSendMessage = true) (callsign : Str) (s : APRSAdapter) :
    (executeFrame setup key callsign frame).Yields s fun outcome _ =>
      ∀ responses, outcome = .ok responses → responses.length = 1 := by
  intro responses h
  rcases handleFrame_eq_ok h with ⟨request', objects, hdecode', hdispatch, hencoded⟩ | ⟨hnone, -⟩
  · obtain rfl := Except.ok.inj (hdecode.symm.trans hdecode')
    obtain ⟨events, t, hrun, -⟩ :=
      dispatchRouted_yields callsign request s objects (congrArg Prod.fst hdispatch)
    rw [← hencoded.length_eq]
    exact dispatch_one hsend (congrArg Prod.fst hrun)
  · exact absurd hdecode (hnone request)

/-- The call from `s` has executed a request under `key`, with these responses. -/
structure Batched (setup : Setup) (key : TransactionKey) (responses : List Bytes)
    (s s' : APRSAdapter) : Prop where
  /-- What the replay cache holds of a `SEND_MESSAGE` has one response. -/
  one : ∀ replay request, (key, replay) ∈ s'.replay.entries →
    decodeFrame replay.request = .ok request →
    request.isSendMessage = true → responses.length ≤ 1
  /-- The batch is whole exactly if there was room for it. -/
  whole_iff : WholeBatch key.1 responses (s'.newResponses s.burstOrder key) ↔
    (supersedeStaleBatches key.1 key s).FitsWhole setup key.1 responses

/-- If the call has had Core execute a request, it was one under `key`. -/
def Batches (setup : Setup) (key : TransactionKey) (s s' : APRSAdapter) : Prop :=
  ∀ x responses, s'.executions = s.executions ++ [x] → x.outcome = .ok responses →
    x.key = key ∧ Batched setup key responses s s'

theorem Batches.of_executions {s' : APRSAdapter} (h : s'.executions = s.executions) :
    Batches setup key s s' := by
  intro x _ hx
  rw [h] at hx
  exact absurd (List.self_eq_append_right.mp hx) (List.cons_ne_nil _ _)

/-- What comes before the request changes no transaction. -/
theorem Batches.after {s₁ s' : APRSAdapter} (h : Batches setup key s₁ s')
    (hbursts : Keeps APRSAdapter.bursts s s₁)
    (hexecutions : s₁.executions = s.executions) : Batches setup key s s' := by
  intro x responses hx houtcome
  obtain ⟨hkey, hone, hwhole⟩ := h x responses (hexecutions ▸ hx) houtcome
  rw [(bursts_inj hbursts).2.2, fitsWhole_congr (supersede_congr hbursts)] at hwhole
  exact ⟨hkey, hone, hwhole⟩

theorem completeRequest_queued (messageId : Option Str) (hpeer : validatePeer key.1 = .ok key.1)
    (hsound : s.outbound.Sound setup) :
    (completeRequest setup key messageId frame now).Yields s fun _ s' =>
      Batches setup key s s' := by
  refine Yields.ofExcept_bind (fun request hdecode => ?_) fun _ _ => .of_executions rfl
  split
  · exact Yields.bind (confirmInbound_yields messageId _ false s)
      (fun _ s₁ hs₁ => .of_executions (congrArg Inbound.executions hs₁.2))
      fun _ s₁ hs₁ => .of_executions (congrArg Inbound.executions hs₁.2)
  rw [confirmInbound_accepted, when_pure, pure_bind]
  refine Yields.ofExcept_bind (fun callsign hcallsign => ?_) fun _ _ => .of_executions rfl
  refine Yields.bind (Yields.and
    (Yields.of_outcome (reconcileRequest_returns callsign request hsound.base.1 hsound.base.2))
    (Yields.and (Yields.of_moves (reconcileRequest_keepsOuter callsign request).inbound)
      (Yields.and (Yields.of_moves (reconcileRequest_changes callsign request))
        (Yields.of_moves (reconcileRequest_keepsBursts callsign request))))) (fun _ s₁ hs₁ => ?_)
    fun _ _ h => by cases h.1
  obtain ⟨-, hinbound₁, hchanges₁, hbursts₁⟩ := hs₁
  have hsound₁ := hsound.trace hchanges₁.quiet
  refine Yields.mono (P := fun _ s' => Batches setup key s₁ s') ?_ fun _ _ h =>
    h.after hbursts₁ (congrArg Inbound.executions hinbound₁)
  have hsend : (executeFrame setup key callsign frame).Yields s₁ fun outcome s₂ =>
      (request.isSendMessage = true → ∀ responses, outcome = .ok responses → responses.length = 1) ∧
      (request.isSendMessage = false → Keeps APRSAdapter.bursts s₁ s₂) :=
    ⟨fun hsend => executeFrame_one hdecode hsend callsign s₁,
      fun hsend => executeFrame_keepsBursts hdecode hsend callsign s₁⟩
  refine Yields.bind (Yields.and (Yields.and (executeFrame_yields callsign s₁) (Yields.and
    (executeFrame_answered callsign s₁) (Yields.and
      (Yields.of_moves (executeFrame_changes callsign frame))
    (Yields.of_moves (executeFrame_addsNoResponses callsign))))) hsend) (fun responses s₂ hs₂ => ?_)
      fun e s₂ hs₂ => ?_
  · obtain ⟨⟨⟨x₀, -, hkey, -, hframe, houtcome, hinbound₂⟩, hanswered, hchanges₂, hadds⟩, hone,
      hkeeps⟩ := hs₂
    have hanswered := hanswered responses rfl
    have hone : request.isSendMessage = true → responses.length ≤ 1 :=
      fun hsend => (hone hsend responses rfl).le
    refine Yields.mono (Yields.and (finishRequest_queued hpeer hcallsign
      (hsound₁.trace hchanges₂.quiet) hanswered
      hone hadds.1 (newResponses_eq_nil hsound₁ hadds))
        (finishRequest_inbound hcallsign hanswered.decodes s₂))
      fun outcome s' hs' x responses' hx hok => ?_
    obtain ⟨hwhole, -, hinbound'⟩ := hs'
    have hexecutions : s'.executions = s₁.executions ++ [x₀] :=
      (congrArg Inbound.executions hinbound').trans (congrArg Inbound.executions hinbound₂)
    obtain rfl := List.singleton_inj.mp (List.append_cancel_left (hexecutions.symm.trans hx))
    obtain rfl := Except.ok.inj (houtcome.symm.trans hok)
    refine ⟨hkey, fun replay request' hreplay hdecode' hsend' => ?_, hwhole.trans ?_⟩
    · -- the cache holds the request under this key only
      rw [show s'.replay = _ from congrArg Inbound.replay hinbound'] at hreplay
      rcases ReplayCache.mem_of_put hreplay with heq | ⟨-, hne⟩
      · obtain rfl := (Prod.mk.inj heq).2
        obtain rfl := Except.ok.inj (hdecode.symm.trans hdecode')
        exact hone hsend'
      · exact absurd rfl hne
    · cases hsend' : request.isSendMessage with
      | true =>
        exact iff_of_true (fitsWhole_of_le_one (hone hsend')) (fitsWhole_of_le_one (hone hsend'))
      | false => exact fitsWhole_congr (supersede_congr (hkeeps hsend'))
  · obtain ⟨⟨⟨x₀, -, -, -, -, houtcome, hs₂⟩, -⟩, -⟩ := hs₂
    intro x responses hx hok
    obtain rfl := List.singleton_inj.mp (List.append_cancel_left
      ((congrArg Inbound.executions hs₂).symm.trans hx))
    cases houtcome.symm.trans hok

theorem receiveFragment_queued {fragment : APRSFragment} (messageId : Option Str)
    (hpeer : validatePeer peer = .ok peer) (hsound : s.outbound.Sound setup) :
    (receiveFragment setup peer messageId fragment now).Yields s fun _ s' =>
      Batches setup (peer, fragment.transactionId) s s' := by
  have hkeeps : ∀ {α : Type} {m : Adapter α} {s₁ : APRSAdapter}, KeepsInbound m →
    s₁.executions = s.executions →
      m.Yields s₁ fun _ s' => Batches setup (peer, fragment.transactionId) s s' := fun hm hs₁ =>
    Yields.mono (Yields.of_moves hm) fun _ s' hs' =>
      .of_executions ((congrArg Inbound.executions hs').trans hs₁)
  have hconfirm : ∀ {α : Type} (p : Prop) [Decidable p] (accepted : Bool) (a : α), KeepsInbound (do
      Method.when p (confirmInbound setup peer messageId accepted)
      return a) := fun _ _ _ _ => Moves.bind (Moves.when (confirmInbound_keepsInbound _ _))
        fun _ => Moves.pure _
  refine Yields.bind (Q := fun _ s₁ => Keeps APRSAdapter.bursts s s₁ ∧
    s₁.executions = s.executions ∧
    s₁.outbound = s.outbound) ⟨rfl, rfl, rfl⟩ (fun result s₁ hs₁ => ?_) fun _ _ hs₁ =>
      .of_executions hs₁.2.1
  obtain ⟨hbursts₁, hexecutions₁, hout₁⟩ := hs₁
  match result with
  | .error e => exact hkeeps (Moves.ite (hconfirm _ _ _) (Moves.raise _)) hexecutions₁
  | .ok none => exact hkeeps (hconfirm _ _ _) hexecutions₁
  | .ok (some frame) =>
    refine Yields.bind (Q := fun _ s₂ => Keeps APRSAdapter.bursts s s₂ ∧
      s₂.executions = s.executions ∧
      s₂.outbound = s.outbound) ⟨hbursts₁, hexecutions₁, hout₁⟩ (fun found s₂ hs₂ => ?_)
      fun _ _ hs₂ => .of_executions hs₂.2.1
    obtain ⟨hbursts₂, hexecutions₂, hout₂⟩ := hs₂
    match found with
    | some cached => exact hkeeps (replayRequest_keepsInbound _ _) hexecutions₂
    | none =>
      exact Yields.mono (completeRequest_queued messageId hpeer (hout₂ ▸ hsound)) fun _ _ h =>
        h.after hbursts₂ hexecutions₂

/-- Acknowledging a request drops at most its batch, and only if the cache holds a `SEND_MESSAGE`
that was stored. -/
theorem acknowledgeRequest_compacts (s : APRSAdapter) :
    (acknowledgeRequest setup key now).Yields s fun _ s' => s'.executions = s.executions ∧
      s'.core = s.core ∧
      (s'.outbound = s.outbound ∨
        s'.outbound = (dropBatches key.1 (fun tx => tx.responseBatch = some key) s).outbound ∧
        ∃ replay, s.inbound.cached setup key now = some replay ∧
          replay.isStoredSend = .ok true) := by
  refine Yields.ofExcept_bind (fun ack _ => ?_) fun _ _ => ⟨rfl, rfl, .inl rfl⟩
  refine Yields.modify_bind (Yields.bind (Q := fun outcome s₁ =>
    outcome = .ok (s.inbound.cached setup key now) ∧ s₁.executions = s.executions ∧
      s₁.core = s.core ∧
      s₁.outbound = s.outbound) ⟨rfl, rfl, rfl, rfl⟩ (fun found s₁ hs₁ => ?_) fun _ _ h =>
        absurd h.1 nofun)
  obtain ⟨hfound, hexecutions, hcore, hout⟩ := hs₁
  have hfound := Except.ok.inj hfound
  cases found with
  | none => exact ⟨hexecutions, hcore, .inl hout⟩
  | some replay =>
    refine Yields.ofExcept_bind (fun stored hstored => ?_) fun _ _ =>
      ⟨hexecutions, hcore, .inl hout⟩
    cases stored with
    | false => exact ⟨hexecutions, hcore, .inl hout⟩
    | true =>
      rw [when_true rfl]
      have hdropped : (dropBatches key.1 (fun tx => tx.responseBatch = some key) s₁).outbound =
          (dropBatches key.1 (fun tx => tx.responseBatch = some key) s).outbound :=
        congrArg (fun o : Outbound => { o with
          queue := o.queue.filter fun tx => !decide (tx.responseBatch = some key)
          active := o.active.filter fun e => !(e.1 =
            key.1 && decide (e.2.responseBatch = some key)) }) hout
      exact Yields.modify_bind (Yields.ofExcept_bind
        (fun _ _ => ⟨hexecutions, hcore, .inr ⟨hdropped, replay, hfound.symm, hstored⟩⟩)
        fun _ _ => ⟨hexecutions, hcore, .inr ⟨hdropped, replay, hfound.symm, hstored⟩⟩)

/-- The request of such an entry is a `SEND_MESSAGE`. -/
theorem isSendMessage_of_isStoredSend {replay : Replay} (h : replay.isStoredSend = .ok true) :
    ∃ request, decodeFrame replay.request = .ok request ∧ request.isSendMessage = true ∧
      sendWasStored replay.responses = .ok true := by
  obtain ⟨request, hdecode, hstored⟩ := bind_eq_ok.mp h
  by_cases hsend : request.isSendMessage = true
  · rw [if_pos hsend] at hstored
    exact ⟨request, hdecode, hsend, hstored⟩
  · rw [if_neg hsend] at hstored
    cases hstored

/-- If the call has had Core execute a request, its batch is whole exactly if there was room for
it. -/
def QueuesWhole (setup : Setup) (peer : Str) (s s' : APRSAdapter) : Prop :=
  ∀ x responses, s'.executions = s.executions ++ [x] → x.outcome = .ok responses →
    (WholeBatch peer responses (s'.newResponses s.burstOrder x.key) ↔
      (supersedeStaleBatches peer x.key s).FitsWhole setup peer responses)

theorem Batches.queuesWhole {s' : APRSAdapter} (h : Batches setup key s s') :
    QueuesWhole setup key.1 s s' := by
  intro x responses hx houtcome
  obtain ⟨rfl, hbatched⟩ := h x responses hx houtcome
  exact hbatched.whole_iff

theorem QueuesWhole.of_executions {s' : APRSAdapter} (h : s'.executions = s.executions) :
    QueuesWhole setup peer s s' := by
  intro x _ hx
  rw [h] at hx
  exact absurd (List.self_eq_append_right.mp hx) (List.cons_ne_nil _ _)

theorem QueuesWhole.after {s₁ s' : APRSAdapter} (h : QueuesWhole setup peer s₁ s')
    (hbursts : Keeps APRSAdapter.bursts s s₁) (hexecutions : s₁.executions = s.executions) :
    QueuesWhole setup peer s s' := by
  intro x responses hx houtcome
  have hwhole := h x responses (hexecutions ▸ hx) houtcome
  rwa [(bursts_inj hbursts).2.2, fitsWhole_congr (supersede_congr hbursts)] at hwhole

theorem acknowledgeRequest_queued {s₁ : APRSAdapter} (h : Batches setup key s s₁) :
    (acknowledgeRequest setup key now).Yields s₁ fun _ s' => QueuesWhole setup key.1 s s' := by
  refine Yields.mono (acknowledgeRequest_compacts s₁) fun _ s' hs' x responses hx houtcome => ?_
  obtain ⟨hexecutions, -, heffect⟩ := hs'
  obtain ⟨rfl, hone, hwhole⟩ := h x responses (hexecutions ▸ hx) houtcome
  rcases heffect with hout | ⟨hout, replay, hcached, hstored⟩
  · rwa [newResponses, show s'.burstQueue = s₁.burstQueue from congrArg Outbound.queue hout]
  · obtain ⟨request, hdecode, hsend, -⟩ := isSendMessage_of_isStoredSend hstored
    have hnone : s'.newResponses s.burstOrder x.key = [] := by
      rw [newResponses, show s'.burstQueue = _ from congrArg Outbound.queue hout,
        List.filter_eq_nil_iff]
      intro tx htx hnew
      have hother : ¬tx.responseBatch = some x.key := by simpa using (List.mem_filter.mp htx).2
      exact hother (of_decide_eq_true hnew).2
    have hmem := (ReplayCache.get_eq_some hcached).1
    exact iff_of_true (.inl hnone) (fitsWhole_of_le_one (hone replay request hmem hdecode hsend))

theorem afterCommit_queued {s₁ : APRSAdapter} {d : Disposition} (h : Batches setup key s s₁) :
    (afterCommit setup key now d).Yields s₁ fun _ s' => QueuesWhole setup key.1 s s' := by
  have hforget : ∀ (p : Prop) [Decidable p] (s₂ : APRSAdapter), QueuesWhole setup key.1 s s₂ →
      (do
        Method.when p (modify fun s : APRSAdapter =>
          { s with rxProgress := s.rxProgress.erase key })
        return d : Adapter Disposition).Yields s₂ fun _ s' => QueuesWhole setup key.1 s s' := by
    intro p _ s₂ hs₂
    rw [Method.when]
    split <;> exact hs₂
  have hack : (Method.when (d = .completed ∨ d = .replayed)
    (acknowledgeRequest setup key now)).Yields s₁
      fun _ s' => QueuesWhole setup key.1 s s' := by
    rw [Method.when]
    split
    · exact acknowledgeRequest_queued h
    · exact h.queuesWhole
  exact Yields.bind hack (fun _ s₂ hs₂ => hforget _ s₂ hs₂) fun _ _ hs₂ => hs₂

theorem receive_queued (hsound : s.outbound.Sound setup) (body : Str) :
    (receive setup peer body now).Yields s fun _ s' => QueuesWhole setup peer s s' := by
  by_cases hparse : ∃ result, parsePacket peer body = .ok result
  · obtain ⟨⟨peer', fragment⟩, parsed⟩ := hparse
    obtain ⟨rfl, hpeer, -⟩ := parsePacket_eq_ok parsed
    rw [receive]
    simp only [parsed]
    refine Yields.bind (Q := fun _ s₁ => Keeps APRSAdapter.bursts s s₁ ∧
      s₁.executions = s.executions ∧
      s₁.outbound = s.outbound) ⟨rfl, rfl, rfl⟩ (fun found s₁ hs₁ => ?_) fun _ _ hs₁ =>
        .of_executions hs₁.2.1
    obtain ⟨hbursts₁, hexecutions₁, hout₁⟩ := hs₁
    cases found with
    | some replay =>
      refine Yields.modify_bind (Yields.bind (acknowledgeRequest_compacts _) (fun _ s₂ hs₂ => ?_)
        fun _ s₂ hs₂ => ?_)
      · exact .of_executions (hs₂.1.trans hexecutions₁)
      · exact .of_executions (hs₂.1.trans hexecutions₁)
    | none =>
      dsimp only
      rw [receiveBurst_of_parsed parsed]
      refine Yields.mono (P := fun _ s' => QueuesWhole setup peer' s₁ s') ?_ fun _ _ h =>
        h.after hbursts₁ hexecutions₁
      refine Yields.modify_bind ?_
      generalize hs₂ : ({ s₁ with
        rxProgress := s₁.rxProgress.set (peer', fragment.transactionId)
          (.note setup fragment now (s₁.rxProgress.get? (peer', fragment.transactionId))) } :
            APRSAdapter) = s₂
      have hsound₂ : s₂.outbound.Sound setup := by
        rw [← hs₂]
        exact hout₁ ▸ hsound
      have hbursts₂ : Keeps APRSAdapter.bursts s₁ s₂ := by
        rw [← hs₂]
        rfl
      have hexecutions₂ : s₂.executions = s₁.executions := by
        rw [← hs₂]
      rw [receiveCommit_of_parsed parsed]
      refine Yields.mono (P := fun _ s' => QueuesWhole setup peer' s₂ s') ?_ fun _ _ h =>
        h.after hbursts₂ hexecutions₂
      exact Yields.bind (receiveFragment_queued (trailingMessageId body) hpeer hsound₂)
        (fun d s₃ hs₃ => afterCommit_queued (d := d) hs₃) fun _ _ hs₃ => hs₃.queuesWhole
  · rw [not_exists] at hparse
    exact Yields.mono (Yields.of_moves (receive_unparsed hparse)) fun _ _ hs' =>
      .of_executions (congrArg Inbound.executions hs')

/-- In every run, when Core has executed the request that a packet completes, either all its
responses are queued in their order or none, exactly if there was room for all of them or not even
for the first one. -/
theorem responses_whole_iff (setup : Setup) (core : CoreState) (calls : List Call) (peer body : Str)
    (now : ℚ)
    (x : Execution) (responses : List Bytes)
    (hexecuted : (step setup (runState setup core calls calls.length)
      (.receive peer body now)).executions =
      (runState setup core calls calls.length).executions ++ [x])
    (houtcome : x.outcome = .ok responses) :
    WholeBatch peer responses
        ((step setup (runState setup core calls calls.length) (.receive peer body now)).newResponses
          (runState setup core calls calls.length).burstOrder x.key) ↔
      (supersedeStaleBatches peer x.key (runState setup core calls calls.length)).FitsWhole
        setup peer
        responses := by
  have hsound := runState_sound setup core calls calls.length le_rfl
  have hqueued : (do return Response.disposition (← receive setup peer body now) :
    Adapter Response).Yields
      (runState setup core calls calls.length) fun _ s' =>
        QueuesWhole setup peer (runState setup core calls calls.length) s' :=
    Yields.bind (receive_queued hsound body) (fun _ _ h => h) fun _ _ h => h
  exact hqueued x responses hexecuted houtcome

section Small

/-- A station whose outbound queue has room for one packet. -/
def smallQueue : Setup :=
  { Setup.standard false ⟨true, true⟩ with
    config := { (Setup.standard false ⟨true, true⟩).config with
      queueCapacity := 1
      queueCapacity_pos := Nat.one_pos } }

/-- It has stored a message for `EA2DEF`. -/
def onePending : APRSAdapter :=
  runState smallQueue ⟨.fresh, 1700000000, .empty⟩
    [.receive (str "EA1ABC") (str "Q1:000:00/01:AQEADQAAAAEGRUEyREVGAXg") 0] 1

/-- `EA2DEF` reads its mailbox. -/
def readsMailbox : Call := .receive (str "EA2DEF") (str "Q1:001:00/01:AQIABQAAAAAU") 1

/-- A `MESSAGE` and an `END`. -/
def mailboxResponses : List Bytes :=
  [[1, 64, 0, 28, 0, 0, 0, 1, 0, 0, 0, 1, 0, 0, 0, 1, 6, 69, 65, 49, 65, 66, 67, 6, 69, 65, 50, 68,
    69, 70, 1, 120],
    [1, 67, 0, 7, 2, 1, 0, 0, 0, 1, 0]]

theorem readsMailbox_history :
    ((step smallQueue onePending readsMailbox).executions.drop onePending.executions.length).map
      (fun x => (x.key, x.outcome)) = [((str "EA2DEF", str "001"), .ok mailboxResponses)] := by
        decide +kernel

/-- The `MESSAGE` stays in the queue without its `END`. -/
theorem responses_notWhole :
    ∃ x, (step smallQueue onePending readsMailbox).executions = onePending.executions ++ [x] ∧
      x.outcome = .ok mailboxResponses ∧
      ¬WholeBatch (str "EA2DEF") mailboxResponses
        ((step smallQueue onePending readsMailbox).newResponses onePending.burstOrder x.key) := by
  obtain ⟨x, hexecuted, hkey, houtcome⟩ := executed_of_history readsMailbox_history
  refine ⟨x, hexecuted, houtcome, ?_⟩
  have hone : ((step smallQueue onePending readsMailbox).newResponses onePending.burstOrder
      (str "EA2DEF", str "001")).length = 1 := by decide +kernel
  rw [hkey]
  rintro (hnil | hcarry)
  · rw [hnil] at hone
    cases hone
  · rw [← List.Forall₂.length_eq hcarry] at hone
    cases hone

theorem responses_whole_iff_readsMailbox :
    ∃ x : Execution, x.outcome = .ok mailboxResponses ∧
      (WholeBatch (str "EA2DEF") mailboxResponses
          ((step smallQueue onePending readsMailbox).newResponses onePending.burstOrder x.key) ↔
        (supersedeStaleBatches (str "EA2DEF") x.key onePending).FitsWhole smallQueue (str "EA2DEF")
          mailboxResponses) := by
  obtain ⟨x, hexecuted, -, houtcome⟩ := executed_of_history readsMailbox_history
  exact ⟨x, houtcome, responses_whole_iff smallQueue ⟨.fresh, 1700000000, .empty⟩
    [.receive (str "EA1ABC") (str "Q1:000:00/01:AQEADQAAAAEGRUEyREVGAXg") 0] (str "EA2DEF")
    (str "Q1:001:00/01:AQIABQAAAAAU") 1 x mailboxResponses hexecuted houtcome⟩

end Small

end OpenQSP
