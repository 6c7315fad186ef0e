import OpenQSP.Aprs.Inbound
import OpenQSP.Commit.Outbox

/-!
# What the methods of the exported adapter do

Every method but `poll` makes some moves of the outbound half, whether it returns or raises. So does
`poll` in a sound state, and what it sends was held: a packet is sent once more as long as it is
unacknowledged, and a fragment is sent for the first time when it is a least one of the queue.

## Main definitions

* `Changes` — some moves

## Main results

* `receive_changes`
* `pollPending_yields`, `pollQueue_yields`
* `step_changes` — one call
* `runState_sound`
-/

namespace OpenQSP

open Method Py

namespace CommitAPRSAdapter

variable {setup : CommitSetup} {peer : Str} {key : TransactionKey} {now : ℚ} {s : CommitAPRSAdapter}

/-- Some moves lead from one outbound half to the other. -/
def Changes (s s' : CommitAPRSAdapter) : Prop :=
  Relation.ReflTransGen Outbox.Move s.outbox s'.outbox

instance : IsPreorder CommitAPRSAdapter Changes where
  refl _ := Relation.ReflTransGen.refl
  trans _ _ _ h h' := Relation.ReflTransGen.trans h h'

theorem Changes.single {s s' : CommitAPRSAdapter} (h : Outbox.Move s.outbox s'.outbox) :
    Changes s s' :=
  Relation.ReflTransGen.single h

theorem Changes.sound {s s' : CommitAPRSAdapter} (h : Changes s s') (hsound : s.outbox.Sound) :
    s'.outbox.Sound := by
  rw [Changes] at h
  generalize s.outbox = o, s'.outbox = o' at *
  induction h with
  | refl => exact hsound
  | tail _ last ih => exact last.sound ih

theorem Changes.later {s s' : CommitAPRSAdapter} (h : Changes s s') : s.outbox.Later s'.outbox := by
  rw [Changes] at h
  generalize s.outbox = o, s'.outbox = o' at *
  induction h with
  | refl => exact refl_of Outbox.Later _
  | tail _ last ih => exact trans_of Outbox.Later ih last.later

/-- The method does not change the outbound half. -/
abbrev KeepsOutbox {α : Type} (m : CommitAdapter α) : Prop :=
  m.Moves (Keeps CommitAPRSAdapter.outbox)

theorem Changes.of_keeps {s s' : CommitAPRSAdapter} (h : Keeps CommitAPRSAdapter.outbox s s') :
    Changes s s' := by
  rw [Changes, show s'.outbox = s.outbox from h]

theorem KeepsOutbox.changes {α : Type} {m : CommitAdapter α} (h : KeepsOutbox m) :
    m.Moves Changes :=
  h.mono fun _ _ => Changes.of_keeps

/-! ### Methods that leave the outbound half alone -/

theorem onCore_keepsOutbox {α : Type} (m : Method PyError CoreState α) : KeepsOutbox (onCore m) :=
  fun _ => rfl

theorem mark_keepsOutbox (status : DeliveryStatus) (delivery : Delivery) :
    KeepsOutbox (mark setup status delivery) :=
  Moves.bind (Moves.modify fun _ => rfl) fun _ => onCore_keepsOutbox _

theorem markDelivery_keepsOutbox (status : DeliveryStatus) (delivery : Option Delivery) :
    KeepsOutbox (markDelivery setup status delivery) := by
  cases delivery with
  | none => exact Moves.pure _
  | some delivery => exact mark_keepsOutbox status delivery

theorem confirmInbound_keepsOutbox (messageId : Option Str) (accepted : Bool) :
    KeepsOutbox (confirmInbound setup peer messageId accepted) := by
  cases messageId with
  | none => exact Moves.pure _
  | some messageId => exact Moves.modify fun _ => rfl

theorem activateAprs_keepsOutbox (responses : List Bytes) :
    KeepsOutbox (activateAprs setup peer responses) := by
  refine Moves.ite (Moves.pure _) (Moves.bind (Moves.ofExcept _) fun _ => ?_)
  exact Moves.ite (Moves.pure _) (Moves.bind (Moves.ofExcept _) fun _ => onCore_keepsOutbox _)

/-! ### Dropping -/

/-- The queue is a heap again when something was dropped from it. -/
theorem Changes.drop (s : CommitAPRSAdapter) (p : QueuedFragment → Bool)
    (q : (Str × Str) × PendingFragment → Bool) :
    Changes s { s with
      queue := Heapq.heapify QueuedFragment.le (s.queue.filter p)
      pending := s.pending.filter q } :=
  .single (.drop s.outbox p q (Heapq.heapify_perm _) fun _ => Heapq.heapify_isHeap _)

theorem Changes.supersedeStaleBatches (s : CommitAPRSAdapter) :
    Changes s (supersedeStaleBatches peer key s) := by
  rw [CommitAPRSAdapter.supersedeStaleBatches]
  split
  · exact refl_of Changes s
  · exact .drop s _ _

theorem failTransaction_changes (failed : PendingFragment) :
    (failTransaction setup peer failed).Moves Changes := by
  refine Moves.get_bind fun s => Moves.bind (Moves.modify fun s => .drop s _ _) fun _ => ?_
  exact Moves.forM fun _ _ => (mark_keepsOutbox _ _).changes

theorem reconcileMessageCursor_changes (callsign : Str) (since : ℤ) :
    (reconcileMessageCursor setup peer callsign since).Moves Changes := by
  intro s
  have hmarked : ∀ l : List Delivery, (l.forM (mark setup .delivered)).Moves Changes := fun l =>
    Moves.forM fun _ _ => (mark_keepsOutbox _ _).changes
  show (reconcileMessageCursor setup peer callsign since).Yields s fun _ s' => Changes s s'
  refine Yields.get_bind (Yields.modify_bind (Yields.mono (Yields.of_moves (hmarked _))
    fun _ s' hs' => ?_))
  refine trans_of Changes (.single ?_) hs'
  -- Where nothing is covered, the queue is left as it is.
  refine .drop s.outbox (fun item => !(decide (item.peer = peer) && isCovered callsign since
    item.delivery)) _ ?_
    fun hheap => ?_
  · dsimp only
    split
    · exact Heapq.heapify_perm _
    · next hsame =>
      rw [not_not] at hsame
      exact .of_eq (List.filter_eq_self.mpr (List.length_filter_eq_length_iff.mp hsame)).symm
  · dsimp only
    split
    · exact Heapq.heapify_isHeap _
    · exact hheap

theorem reconcileRequest_changes (callsign : Str) (request : ProtocolObject) :
    (reconcileRequest setup peer callsign request).Moves Changes := by
  cases request with
  | getNewMessages request => exact reconcileMessageCursor_changes callsign request.since
  | _ => exact Moves.pure _

theorem connectionLost_changes : (connectionLost setup).Moves Changes := by
  have hclear : ∀ s : CommitAPRSAdapter, Changes s
    { s with queue := [], pending := .empty, immediate := [] } := by
    intro s
    have hmove : Outbox.Move s.outbox { s.outbox with
        queue := []
        pending := s.pending.filter fun _ => false } :=
      .drop s.outbox (fun _ => false) (fun _ => false) (by rw [List.filter_false]) fun _ => .nil
    rw [show s.pending.filter (fun _ => false) = .empty from
      OrderedDict.ext (List.filter_false _)] at hmove
    exact .single hmove
  refine Moves.get_bind fun s => Moves.bind (Moves.modify hclear) fun _ => ?_
  exact Moves.forM fun _ _ => (mark_keepsOutbox _ _).changes

theorem receiveAck_changes (messageId : Str) : (receiveAck setup peer messageId).Moves Changes := by
  intro s
  show (receiveAck setup peer messageId).Yields s fun _ s' => Changes s s'
  refine Yields.get_bind ?_
  cases hfound : s.pending.get? (peer, messageId) with
  | none => exact refl_of Changes s
  | some pending =>
    have hacked : Changes s { s with
        pending := s.pending.erase (peer, messageId)
        acked := s.acked ++ [pending.item] } := .single (.ack s.outbox hfound)
    refine Yields.modify_bind (Yields.get_bind ?_)
    refine Yields.bind_of_moves (Moves.when (markDelivery_keepsOutbox _ _)) (fun _ s' hs' => ?_)
      fun _ s' hs' => ?_
    · exact trans_of Changes hacked (.of_keeps hs')
    · exact trans_of Changes hacked (.of_keeps hs')

/-! ### Queueing -/

/-- The identifier that the loop finds is not in use. -/
theorem allocateFrom_spec {width space : ℕ} {active : List Str} {tries next : ℕ} {candidate : Str}
    (h : (allocateFrom width space active tries next).1 = some candidate) :
    candidate ∉ active ∧ ∃ value, candidate = base36Digits width value := by
  induction tries generalizing next with
  | zero => cases h
  | succ tries ih =>
    rw [allocateFrom] at h
    split at h
    · next hfree =>
      obtain rfl := Option.some.inj h
      exact ⟨hfree, _, rfl⟩
    · exact ih h

theorem allocate_keepsOutbox (transaction : Bool) :
    KeepsOutbox (allocate setup peer transaction) := by
  refine Moves.get_bind fun s => Moves.bind (Moves.modify fun s => ?_) fun _ => ?_
  · rw [apply_ite (Keeps CommitAPRSAdapter.outbox s)]
    split <;> rfl
  · split
    · exact Moves.pure _
    · exact Moves.raise _

theorem allocate_messageId (s : CommitAPRSAdapter) :
    (allocate setup peer false).Yields s fun outcome s' =>
    s'.outbox = s.outbox ∧ ∀ messageId, outcome = .ok messageId →
      messageId ∉ s.activeMessageIds peer ∧
      ∃ value, messageId = base36Digits 2 value := by
  refine Yields.and (allocate_keepsOutbox false s) ?_
  have hfound : ∀ found, allocateFrom 2 (36 ^ 2) (s.activeMessageIds peer) (36 ^ 2)
      ((s.nextMessage.get? peer).getD 0) = found → ∀ messageId, found.1 = some messageId →
        messageId ∉ s.activeMessageIds peer ∧ ∃ value, messageId = base36Digits 2 value := by
    rintro found rfl messageId h
    exact allocateFrom_spec h
  rw [allocate]
  refine Yields.get_bind ?_
  simp only [Bool.false_eq_true, if_false]
  generalize allocateFrom 2 (36 ^ 2) (s.activeMessageIds peer) (36 ^ 2)
    ((s.nextMessage.get? peer).getD 0) = found at *
  have hfound := hfound found rfl
  obtain ⟨candidate, next⟩ := found
  refine Yields.modify_bind ?_
  cases candidate with
  | none =>
    intro _ h
    cases h
  | some candidate =>
    intro messageId hmessageId
    obtain rfl := Except.ok.inj hmessageId
    exact hfound candidate rfl

theorem pushFragment_changes (options : QueueOptions) {fragment : APRSFragment}
    (hpeer : validatePeer peer = .ok peer)
    (hindex : fragment.index < fragment.total) (htotal : fragment.total ≤ maxFragments) :
    (pushFragment setup peer options fragment).Moves Changes := by
  intro s
  show (pushFragment setup peer options fragment).Yields s fun _ s' => Changes s s'
  refine Yields.bind (allocate_messageId s) (fun messageId s₁ hs₁ => ?_)
    fun _ s₁ hs₁ => .of_keeps hs₁.1
  obtain ⟨hout, hmessageId⟩ := hs₁
  obtain ⟨hfresh, value, hvalue⟩ := hmessageId messageId rfl
  rw [activeMessageIds, List.mem_append, not_or] at hfresh
  have hpushed : Changes s₁ { s₁ with
      queue := Heapq.heappush QueuedFragment.le s₁.queue
        (queuedAs fragment options peer s₁.order messageId)
      order := s₁.order + 1 } := by
    refine .single (.push s₁.outbox rfl ⟨hpeer, rfl, hindex, htotal, value, congrArg some hvalue⟩
      (fun item' hitem' hsame heq => hfresh.1 ?_) fun key hkey hsame heq => hfresh.2 ?_)
    · rw [hout] at hitem'
      exact List.mem_filterMap.mpr ⟨item', List.mem_filter.mpr ⟨hitem', decide_eq_true hsame⟩, heq⟩
    · rw [hout] at hkey
      obtain rfl := Option.some.inj heq
      exact List.mem_map_of_mem (List.mem_filter.mpr ⟨hkey, decide_eq_true hsame⟩)
  exact trans_of Changes (.of_keeps hout) hpushed

theorem queueFrame_changes (frame : Bytes) (options : QueueOptions) :
    (queueFrame setup peer frame options).Moves Changes := by
  intro s
  show (queueFrame setup peer frame options).Yields s fun _ s' => Changes s s'
  refine Yields.ofExcept_bind (fun peer' hpeer => ?_) fun _ _ => refl_of Changes s
  obtain rfl := validatePeer_eq_ok hpeer
  refine Yields.bind_of_moves (allocate_keepsOutbox true) (fun transactionId s₁ hs₁ => ?_)
    fun _ s₁ hs₁ => .of_keeps hs₁
  refine Yields.ofExcept_bind (fun fragments hfragments => ?_) fun _ _ => .of_keeps hs₁
  refine Yields.get_bind (Yields.ofExcept_bind (fun _ _ => ?_) fun _ _ => .of_keeps hs₁)
  have hpushed : (fragments.forM (pushFragment setup peer' options)).Moves Changes := by
    obtain ⟨hcount, hfragment⟩ := fragmentFrame_eq hfragments
    refine Moves.forM fun fragment hmem => ?_
    obtain ⟨-, -, -, hindex, htotal⟩ := hfragment fragment hmem
    exact pushFragment_changes options hpeer (htotal ▸ hindex) (htotal ▸ hcount)
  exact Yields.bind_of_moves hpushed (fun _ s₂ hs₂ => trans_of Changes (.of_keeps hs₁) hs₂)
    fun _ s₂ hs₂ => trans_of Changes (.of_keeps hs₁) hs₂

theorem deliverMessage_changes (message : Message) (endpoint : Str) :
    (deliverMessage setup message endpoint).Moves Changes := by
  refine Moves.bind (Moves.ofExcept _) fun _ => ?_
  exact Moves.bind (queueFrame_changes _ _) fun _ => (mark_keepsOutbox _ _).changes

theorem routeMessage_changes (message : Message) : (routeMessage setup message).Moves Changes := by
  refine Moves.ite (Moves.catchError (Moves.get_bind fun s => ?_) fun _ => Moves.pure _)
    (Moves.pure _)
  refine Moves.bind (Moves.ofExcept _) fun endpoint => ?_
  cases endpoint with
  | none => exact Moves.pure _
  | some endpoint => exact deliverMessage_changes _ _

/-! ### Requests -/

theorem executeFrame_changes (callsign : Str) (frame : Bytes) :
    (executeFrame setup key callsign frame).Moves Changes := by
  have hdispatch : ∀ callsign request, (dispatchRouted setup callsign request).Moves Changes := by
    intro callsign request
    refine Moves.get_bind fun s => Moves.bind ((onCore_keepsOutbox _).changes) fun result => ?_
    exact Moves.bind (Moves.forM fun _ _ => routeMessage_changes _) fun _ => Moves.pure _
  exact fun s => handleFrame_moves hdispatch callsign frame s

theorem queueResponse_changes (supersedable : Bool) (response : Bytes) :
    (queueResponse setup key supersedable response).Moves Changes := by
  refine Moves.bind (Moves.ofExcept _) fun delivery => ?_
  exact Moves.bind (queueFrame_changes _ _) fun _ => (markDelivery_keepsOutbox _ _).changes

theorem finishRequest_changes (messageId : Option Str) (callsign : Str) (request : ProtocolObject)
    (frame : Bytes)
    (responses : List Bytes) :
    (finishRequest setup key messageId callsign request frame responses now).Moves Changes := by
  have hnote : ∀ s, Changes s (noteCompleted setup key callsign now s) := fun s => .of_keeps rfl
  refine Moves.bind ((activateAprs_keepsOutbox _).changes) fun _ => ?_
  refine Moves.bind (Moves.modify Changes.supersedeStaleBatches) fun _ => ?_
  refine Moves.bind (Moves.modify fun _ => .of_keeps rfl) fun _ => ?_
  refine Moves.bind (Moves.modify hnote) fun _ => Moves.ite ?_ ?_
  · refine Moves.bind (Moves.ofExcept _) fun _ => ?_
    exact Moves.bind ((confirmInbound_keepsOutbox _ _).changes) fun _ => Moves.pure _
  · exact Moves.bind (Moves.forM fun _ _ => queueResponse_changes _ _) fun _ => Moves.pure _

theorem completeRequest_changes (messageId : Option Str) (frame : Bytes) :
    (completeRequest setup key messageId frame now).Moves Changes := by
  have hconfirm : ∀ (p : Prop) [Decidable p] (accepted : Bool),
      (Method.when p (confirmInbound setup key.1 messageId accepted)).Moves Changes :=
    fun p _ accepted => Moves.when ((confirmInbound_keepsOutbox _ _).changes)
  refine Moves.bind (Moves.ofExcept _) fun request => Moves.ite ?_ ?_
  · exact Moves.bind (hconfirm _ _) fun _ => Moves.pure _
  · refine Moves.bind (hconfirm _ _) fun _ => Moves.bind (Moves.ofExcept _) fun callsign => ?_
    refine Moves.bind (reconcileRequest_changes _ _) fun _ => ?_
    exact Moves.bind (executeFrame_changes _ _) fun _ => finishRequest_changes _ _ _ _ _

theorem replayRequest_changes (messageId : Option Str) (cached : Replay) (frame : Bytes) :
    (replayRequest setup key messageId cached frame).Moves Changes := by
  have hconfirm : ∀ accepted, (confirmInbound setup key.1 messageId accepted).Moves Changes :=
    fun accepted => (confirmInbound_keepsOutbox _ _).changes
  refine Moves.ite (Moves.bind (Moves.when (hconfirm _)) fun _ => Moves.pure _) ?_
  refine Moves.bind (Moves.ofExcept _) fun request => ?_
  refine Moves.bind ((activateAprs_keepsOutbox _).changes) fun _ => ?_
  refine Moves.bind (Moves.modify Changes.supersedeStaleBatches) fun _ => Moves.ite ?_ ?_
  · exact Moves.bind (Moves.ofExcept _) fun _ => Moves.bind (hconfirm _) fun _ => Moves.pure _
  · refine Moves.bind (Moves.when (hconfirm _)) fun _ => ?_
    refine Moves.bind (Moves.forM fun _ _ => ?_) fun _ => Moves.pure _
    exact Moves.bind (queueFrame_changes _ _) fun _ => Moves.pure _

theorem receiveFragment_changes (messageId : Option Str) (fragment : APRSFragment) :
    (receiveFragment setup peer messageId fragment now).Moves Changes := by
  have hconfirm : ∀ accepted, (Method.when (commitAckRequested messageId = true)
      (confirmInbound setup peer messageId accepted)).Moves Changes :=
    fun accepted => Moves.when ((confirmInbound_keepsOutbox _ _).changes)
  have hkeeps : ∀ {α : Type} (f : Reassembler → α × Reassembler), KeepsOutbox (onReassembly f) :=
    fun _ _ => rfl
  have hkeeps' : ∀ {α : Type} (f : ReplayCache → α × ReplayCache), KeepsOutbox (onReplay f) :=
    fun _ _ => rfl
  refine Moves.bind ((hkeeps _).changes) fun result => ?_
  rcases result with e | frame | frame
  · exact Moves.ite (Moves.bind (hconfirm _) fun _ => Moves.pure _) (Moves.raise _)
  · exact Moves.bind (hconfirm _) fun _ => Moves.pure _
  · refine Moves.bind ((hkeeps' _).changes) fun cached => ?_
    cases cached with
    | none => exact completeRequest_changes _ _
    | some cached => exact replayRequest_changes _ _ _

theorem receive_changes (body : Str) : (receive setup peer body now).Moves Changes := by
  rw [receive]
  split
  · exact Moves.ite (Moves.pure _) (Moves.raise _)
  split
  · exact receiveAck_changes _
  refine Moves.bind (Moves.when ((confirmInbound_keepsOutbox _ _).changes)) fun _ => ?_
  split
  · refine Moves.ite (Moves.bind (Moves.when ?_) fun _ => Moves.pure _) (Moves.raise _)
    exact (confirmInbound_keepsOutbox _ _).changes
  · exact receiveFragment_changes _ _

/-! ### Polling -/

/-- One turn of the loop repeats an unacknowledged packet, or none. -/
theorem pollPending_yields (key : Str × Str) (s : CommitAPRSAdapter) :
    (pollPending setup now key).Yields s fun outcome s' => Changes s s' ∧
      ∀ es, outcome = .ok es → ∀ e ∈ es, ∃ pending, s.pending.get? key = some pending ∧
        e = .retry pending.item pending.packet := by
  have hnone : ∀ (es : List Emission), (.ok [] : Py (List Emission)) = .ok es → ∀ e ∈ es,
      ∃ pending, s.pending.get? key = some pending ∧ e = .retry pending.item pending.packet := by
    intro es hes
    obtain rfl := Except.ok.inj hes
    exact fun _ he => absurd he List.not_mem_nil
  rw [pollPending]
  refine Yields.get_bind ?_
  cases hfound : s.pending.get? key with
  | none => exact ⟨refl_of Changes s, fun es hes => hfound ▸ hnone es hes⟩
  | some pending =>
    dsimp only
    split
    · exact ⟨refl_of Changes s, fun es hes => hfound ▸ hnone es hes⟩
    split
    · refine Yields.modify_bind (Yields.bind_of_moves (failTransaction_changes pending)
        (fun _ s' hs' => ?_)
        fun _ s' hs' => ⟨hs', nofun⟩)
      exact ⟨hs', fun es hes => hfound ▸ hnone es hes⟩
    split
    · exact ⟨refl_of Changes s, fun es hes => hfound ▸ hnone es hes⟩
    · refine ⟨.single (.retry s.outbox _ hfound), fun es hes e he => ?_⟩
      obtain rfl := Except.ok.inj hes
      exact ⟨pending, rfl, List.mem_singleton.mp he⟩

/-- What is sent from the queue is a least one of its fragments. -/
theorem pollQueue_yields (hsound : s.outbox.Sound) :
    (pollQueue setup now).Yields s fun outcome s' => Changes s s' ∧ ∃ es, outcome = .ok es ∧
      ∀ e ∈ es, ∃ item packet, e = .first item packet ∧ item ∈ s.queue ∧
        (∀ item' ∈ s.queue, item.le item') ∧ s.queue.Perm (item :: s'.queue) := by
  have hnone : Changes s s ∧ ∃ es, (.ok [] : Py (List Emission)) = .ok es ∧ ∀ e ∈ es, ∃ item packet,
      e = .first item packet ∧ item ∈ s.queue ∧ (∀ item' ∈ s.queue, item.le item') ∧
        s.queue.Perm (item :: s.queue) :=
    ⟨refl_of Changes s, [], rfl, fun _ he => absurd he List.not_mem_nil⟩
  rw [pollQueue]
  refine Yields.get_bind ?_
  cases hpop : Heapq.heappop QueuedFragment.le s.queue with
  | none => exact hnone
  | some popped =>
    obtain ⟨item, rest⟩ := popped
    obtain ⟨hhead, hperm, hheap⟩ := Heapq.heappop_spec hsound.heap hpop
    have hitem : item ∈ s.queue := List.mem_of_mem_head? hhead
    obtain ⟨body, hbody⟩ := (hsound.named item (Outbox.mem_held.mpr (.inl hitem))).body
    dsimp only
    split
    · exact hnone
    next hidle =>
    split
    · exact hnone
    · refine Yields.modify_bind ?_
      rw [hbody]
      have hstart : Changes s { s with
          queue := rest
          pending := s.pending.set (item.peer, item.fragment.messageId.getD [])
            (item.sent ⟨setup.serviceCallsign, item.peer, body, false⟩
              (now + setup.config.ackTimeout))
          lastSend := s.lastSend.set item.peer now } := by
        refine .single (.start s.outbox _ _ hperm (fun _ => hheap) fun key hkey hpeer => hidle ?_)
        exact List.any_eq_true.mpr ⟨key, hkey, decide_eq_true hpeer⟩
      refine ⟨hstart, _, rfl, fun e he => ⟨item, _, List.mem_singleton.mp he, hitem, ?_, hperm⟩⟩
      exact hsound.heap.head_le hhead

theorem pollAllPending_changes (keys : List (Str × Str)) : (keys.mapM (pollPending setup now)).Moves
    Changes :=
  Moves.mapM fun key _ s => (pollPending_yields key s).1

theorem takeImmediate_keepsOutbox : KeepsOutbox takeImmediate := fun _ => rfl

theorem pollEmissions_changes (hsound : s.outbox.Sound) :
    (pollEmissions setup now).Yields s fun _ s' => Changes s s' := by
  refine Yields.bind_of_moves takeImmediate_keepsOutbox (fun _ s₁ hs₁ => ?_)
    fun _ _ hs₁ => .of_keeps hs₁
  have hs₁ : Changes s s₁ := .of_keeps hs₁
  refine Yields.get_bind (Yields.bind_of_moves (pollAllPending_changes _) (fun _ s₂ hs₂ => ?_)
    fun _ _ hs₂ => trans_of Changes hs₁ hs₂)
  have hs₂ := trans_of Changes hs₁ hs₂
  refine Yields.bind (pollQueue_yields (hs₂.sound hsound)) (fun _ s₃ hs₃ => ?_) fun _ s₃ hs₃ => ?_
  · exact trans_of Changes (trans_of Changes hs₂ hs₃.1) (.of_keeps rfl)
  · exact trans_of Changes hs₂ hs₃.1

/-! ### Runs -/

theorem step_changes (hsound : s.outbox.Sound) (call : Call) : Changes s (step setup s call) := by
  cases call with
  | receive peer body now => exact Moves.bind (receive_changes body) (fun _ => Moves.pure _) s
  | poll now =>
    exact Yields.bind (P := fun _ s' => Changes s s') (pollEmissions_changes hsound) (fun _ _ h =>
      h) fun _ _ h => h
  | queueFrame peer frame options =>
    exact Moves.bind (queueFrame_changes _ _) (fun _ => Moves.pure _) s
  | deliverMessage message endpoint =>
    exact Moves.bind (deliverMessage_changes _ _) (fun _ => Moves.pure _) s
  | connectionLost => exact Moves.bind connectionLost_changes (fun _ => Moves.pure _) s
  | core change => exact Changes.of_keeps rfl

theorem initial_sound (core : CoreState) : (initial core).outbox.Sound where
  heap := .nil
  order_lt _ h := absurd h List.not_mem_nil
  nodup := List.nodup_nil
  named _ h := absurd h List.not_mem_nil
  ids_nodup := List.nodup_nil
  key_eq _ h := absurd h List.not_mem_nil
  single := List.nodup_nil

variable {core : CoreState} {calls : List Call}

theorem runState_sound (setup : CommitSetup) (core : CoreState) (calls : List Call) :
    ∀ i ≤ calls.length, (runState setup core calls i).outbox.Sound :=
  stateAt_invariant (I := fun s : CommitAPRSAdapter => s.outbox.Sound) (initial_sound core)
    fun _ _ h =>
    (step_changes h _).sound h

theorem runState_changes {i j : ℕ} (hij : i ≤ j) (hj : j ≤ calls.length) :
    Changes (runState setup core calls i) (runState setup core calls j) :=
  stateAt_rel (fun s => refl_of Changes s) (fun _ _ _ h h' => trans_of Changes h h')
    (fun k hk _ => step_changes (runState_sound setup core calls k hk.le) _) hij hj

end CommitAPRSAdapter

end OpenQSP
