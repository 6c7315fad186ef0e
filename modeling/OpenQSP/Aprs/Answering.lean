import OpenQSP.Aprs.Execution
import OpenQSP.Aprs.Fragments
import OpenQSP.Aprs.Transmission
import OpenQSP.Server.Deliverable

/-!
# Answering a request

A request that Core has served is answered, as long as the outbound queue has room: everything that
Core returns is a frame that can be carried, and every message in it can be marked.

## Main definitions

* `IsFull` — what `queue_frame` raises without room

## Main results

* `queueFrame_full` — when it does
* `completeRequest_served` — a request of a user that Core serves
* `executions_decoded` — Core is called with requests only
-/

namespace OpenQSP

open APRSAdapter Method

/-- The two exceptions for an outbound queue without room. -/
def IsFull (e : PyError) : Prop :=
  e = ⟨.overflowError, "bounded APRS outbound queue is full"⟩ ∨
    e = ⟨.overflowError, "peer Q2 transaction ID space exhausted"⟩

instance (e : PyError) : Decidable (IsFull e) := inferInstanceAs (Decidable (_ ∨ _))

variable {setup : Setup} {peer callsign : Str} {key : TransactionKey} {frame : Bytes} {now : ℚ}

/-! ### Queueing -/

theorem allocateFrom_valid {active : List Str} {tries next : ℕ} {candidate : Str}
    (h : (allocateFrom active tries next).1 = some candidate) :
    Profile.q2.ValidTransaction candidate := by
  induction tries generalizing next with
  | zero => cases h
  | succ tries ih =>
    rw [allocateFrom] at h
    split at h
    · obtain rfl := Option.some.inj h
      have hlt : next % 256 < 256 := Nat.mod_lt _ (by decide)
      exact ⟨next % 256, parseBase36_base36Digits (hlt.trans (by decide)), Nat.le_of_lt_succ hlt⟩
    · exact ih h

theorem allocate_full (s : APRSAdapter) : (allocate peer).Yields s fun outcome s' =>
    s'.outbound = s.outbound ∧
    (∀ transactionId, outcome = .ok transactionId → Profile.q2.ValidTransaction transactionId) ∧
    ∀ e, outcome = .error e → e = ⟨.overflowError, "peer Q2 transaction ID space exhausted"⟩ ∧
      ∀ value < 256, base36Digits 3 value ∈ s.activeTransactions peer := by
  obtain ⟨found, hfound⟩ : ∃ found, allocateFrom (s.activeTransactions peer) 256
    ((s.nextTransaction.get? peer).getD 0) = found := ⟨_, rfl⟩
  rw [Yields, allocate_run hfound]
  refine ⟨rfl, fun transactionId h => ?_, fun e h => ?_⟩
  · rcases found with ⟨_ | candidate, next⟩
    · cases h
    · rw [← Except.ok.inj h]
      exact allocateFrom_valid (congrArg Prod.fst hfound)
  · rcases found with ⟨_ | candidate, next⟩
    · exact ⟨(Except.error.inj h).symm, allocateFrom_exhausted (congrArg Prod.fst hfound)⟩
    · cases h

/-- There is no room for a frame to the peer: all its ids are in use, or the fragments are too
many. -/
def APRSAdapter.NoRoom (setup : Setup) (peer : Str) (frame : Bytes) (s : APRSAdapter) : Prop :=
  (∀ value < 256, base36Digits 3 value ∈ s.activeTransactions peer) ∨
    ∃ transactionId fragments, fragmentFrameV2 frame transactionId = .ok fragments ∧
      setup.config.queueCapacity < s.queuedCount + s.pendingCount + fragments.length

variable (setup peer) in
theorem exists_packetsOf {fragments : List APRSFragment}
    (h : ∀ fragment ∈ fragments, ∃ body, fragment.body = .ok body) :
    ∃ packets, packetsOf setup peer fragments = .ok packets := by
  induction fragments with
  | nil => exact ⟨_, rfl⟩
  | cons fragment fragments ih =>
    obtain ⟨body, hbody⟩ := h fragment List.mem_cons_self
    obtain ⟨packets, hpackets⟩ := ih fun f hf => h f (List.mem_cons_of_mem _ hf)
    exact ⟨_, by rw [packetsOf, hbody, Py.ok_bind, hpackets]; rfl⟩

/-- A response that is a frame is queued, unless there is no room. -/
theorem queueFrame_full {decoded : ProtocolObject × UInt8} (hpeer : validatePeer peer = .ok peer)
    (hframe : decodeFrameWithFlags frame = .ok decoded) {options : QueueOptions}
    (hresponse : options.proactive = false) (s : APRSAdapter) :
    (queueFrame setup peer frame options).Yields s fun outcome _ =>
      ∀ e, outcome = .error e → IsFull e ∧ s.NoRoom setup peer frame := by
  rw [queueFrame, hpeer, hresponse, when_false Bool.false_ne_true]
  show Yields (allocate peer >>= _) s _
  refine Yields.bind (allocate_full s) (fun transactionId s₁ hs₁ => ?_) fun e s₁ hs₁ e' he => ?_
  · obtain ⟨fragments, hfragments, hcut⟩ := fragmentFrameV2_ok hframe (hs₁.2.1 transactionId rfl)
    obtain ⟨packets, hpackets⟩ := exists_packetsOf setup peer
      fun fragment hmem => (hcut.body fragment hmem).imp fun _ h => h.1
    refine Yields.ofExcept_bind (fun fragments' hfragments' => ?_) fun e he =>
      nomatch hfragments.symm.trans he
    obtain rfl := Except.ok.inj (hfragments.symm.trans hfragments')
    refine Yields.get_bind (Yields.ofExcept_bind (fun _ _ => ?_) fun e he e' heq => ?_)
    · rw [hpackets]
      exact nofun
    · obtain rfl := Except.error.inj heq
      rw [raiseIf] at he
      split at he
      · next hroom =>
        refine ⟨.inl (Except.error.inj he).symm, .inr ⟨transactionId, fragments, hfragments, ?_⟩⟩
        rwa [queuedCount_add_pendingCount, ← hs₁.1, ← queuedCount_add_pendingCount]
      · cases he
  · obtain rfl := Except.error.inj he
    obtain ⟨hfull, hused⟩ := hs₁.2.2 _ rfl
    exact ⟨.inr hfull, .inl hused⟩

/-! ### The responses of a request -/

theorem CoreState.CanMark.of_messages {stores : Stores} {delivery : Delivery}
    {core core' : CoreState}
    (h : core.CanMark stores delivery) (hmessages : core'.messages = core.messages) :
    core'.CanMark stores delivery := by
  intro hstores
  obtain ⟨htext, hmax, e, he, hrow⟩ := h hstores
  rw [CoreState.messages, CoreState.messages] at hmessages
  exact ⟨htext, hmax, e, hmessages.symm ▸ he, hrow⟩

/-- What Core answered: frames, and messages whose deliveries can be marked. -/
def Answered (setup : Setup) (responses : List Bytes) (core : CoreState) : Prop :=
  ∀ response ∈ responses, ∃ object, decodeFrame response = .ok object ∧
    ∀ message, object = .message message →
      core.CanMark setup.stores (message.recipient, message.sequence)

theorem Answered.decodes {responses : List Bytes} {core : CoreState}
    (h : Answered setup responses core) :
    ∀ data ∈ responses, ∃ object, decodeFrame data = .ok object :=
  fun data hdata => (h data hdata).imp fun _ h => h.1

theorem Answered.of_messages {responses : List Bytes} {core core' : CoreState}
    (h : Answered setup responses core) (hmessages : core'.messages = core.messages) :
    Answered setup responses core' := by
  intro response hmem
  obtain ⟨object, hdecode, hmark⟩ := h response hmem
  exact ⟨object, hdecode, fun message hmessage => (hmark message hmessage).of_messages hmessages⟩

/-- Marking the message of a response is possible, and changes no message. -/
theorem markPending_returns {response : Bytes} {object : ProtocolObject}
    {delivery : Option Delivery}
    (hdecode : decodeFrame response = .ok object) (hdelivery : deliveryOf response = .ok delivery)
    {s : APRSAdapter} (hmark : ∀ message, object = .message message →
      s.core.CanMark setup.stores (message.recipient, message.sequence)) :
    ((markDelivery (CoreState.markAprsPending setup.stores) delivery).run s).1 = .ok () := by
  rw [deliveryOf, hdecode] at hdelivery
  obtain rfl := Except.ok.inj hdelivery
  cases object with
  | message message =>
    obtain ⟨hrun, -⟩ := CoreState.markAprsPending_run (message.recipient, message.sequence) s.core
    exact congrArg Prod.fst (hrun (hmark message rfl))
  | _ => rfl

/-- One response is queued and its message is marked, unless there is no room. -/
theorem queueResponse_full (hpeer : validatePeer key.1 = .ok key.1) {response : Bytes}
    {options : Option Delivery → QueueOptions} (hoptions : ∀ delivery,
      (options delivery).proactive = false)
    {object : ProtocolObject} (hdecode : decodeFrame response = .ok object) {s : APRSAdapter}
    (hmark : ∀ message, object = .message message →
      s.core.CanMark setup.stores (message.recipient, message.sequence)) :
    Yields (do
      let delivery ← Method.ofExcept (deliveryOf response)
      let _ ← queueFrame setup key.1 response (options delivery)
      markDelivery (CoreState.markAprsPending setup.stores) delivery) s
      fun outcome s' => Raises IsFull outcome ∧ s'.core.messages = s.core.messages := by
  refine Yields.and ?_ (Yields.of_moves (R := Keeps fun s : APRSAdapter => s.core.messages) ?_)
  · refine Yields.ofExcept_bind (fun delivery hdelivery => ?_) fun e he => ?_
    · refine Yields.bind (Yields.and (queueFrame_full hpeer
        (decodeFrameWithFlags_of_decodeFrame hdecode) (hoptions delivery) s)
        (Yields.of_moves (queueFrame_keepsMessages response _))) (fun _ s₁ hs₁ => ?_)
        fun e s₁ hs₁ e' he' => (hs₁.1 e' (congrArg Except.error (Except.error.inj he'))).1
      have hreturns := markPending_returns hdecode hdelivery (s := s₁)
        fun message hmessage => (hmark message hmessage).of_messages hs₁.2
      rw [Yields, hreturns]
      exact Raises.ok _
    · rw [deliveryOf, hdecode] at he
      cases he
  · refine Moves.bind (Moves.ofExcept _) fun delivery => ?_
    refine Moves.bind (queueFrame_keepsMessages _ _) fun _ => ?_
    cases delivery with
    | none => exact Moves.pure _
    | some delivery => exact onCore_keepsMessages (CoreState.markAprsPending_messages delivery)

theorem queueResponses_full (hpeer : validatePeer key.1 = .ok key.1) (supersedable : Bool)
    {responses : List Bytes} (s : APRSAdapter) (h : Answered setup responses s.core) :
    (queueResponses setup key supersedable responses).Yields s fun outcome _ =>
      Raises IsFull outcome := by
  induction responses generalizing s with
  | nil => exact Raises.ok _
  | cons response responses ih =>
    obtain ⟨object, hdecode, hmark⟩ := h response List.mem_cons_self
    refine Yields.bind (queueResponse_full hpeer (fun _ => rfl) hdecode hmark) (fun _ s₁ hs₁ => ?_)
      fun e s₁ hs₁ e' he' => hs₁.1 e' (congrArg Except.error (Except.error.inj he'))
    have hrest : Answered setup responses s.core :=
      fun response' hmem => h response' (List.mem_cons_of_mem _ hmem)
    exact ih s₁ (hrest.of_messages hs₁.2)

/-- What Core returns is answered in the state that it leaves. -/
theorem executeFrame_answered (callsign : Str) (s : APRSAdapter) :
    (executeFrame setup key callsign frame).Yields s fun outcome s' =>
      ∀ responses, outcome = .ok responses → Answered setup responses s'.core := by
  intro responses h data hdata
  rcases handleFrame_eq_ok h with ⟨request, objects, -, hdispatch, hencoded⟩ | ⟨-, errors, hencoded⟩
  · obtain ⟨events, t, hrun, hmessages⟩ :=
      dispatchRouted_yields callsign request s objects (congrArg Prod.fst hdispatch)
    obtain ⟨object, hobject, hdecode⟩ := decodeFrame_of_mem_responses hencoded hdata
    refine ⟨object, hdecode, fun message hmessage => ?_⟩
    have hmark : CoreState.CanMark setup.stores (message.recipient, message.sequence)
        { s.core with tables := t } := fun _ =>
          dispatch_deliverable hrun message (hmessage ▸ hobject)
    refine hmark.of_messages (Eq.trans ?_ hmessages)
    rw [hdispatch]
    rfl
  · obtain ⟨object, hobject, hdecode⟩ := decodeFrame_of_mem_responses hencoded hdata
    obtain ⟨error, -, rfl⟩ := List.mem_map.mp hobject
    exact ⟨_, hdecode, fun _ => nofun⟩

theorem sendWasStored_ok {responses : List Bytes}
    (h : ∀ data ∈ responses, ∃ object, decodeFrame data = .ok object) :
    ∃ stored, sendWasStored responses = .ok stored := by
  match responses with
  | [response] =>
    obtain ⟨object, hdecode⟩ := h response (List.mem_singleton_self _)
    exact ⟨object = .stored, by rw [sendWasStored, hdecode]; rfl⟩
  | [] => exact ⟨false, rfl⟩
  | _ :: _ :: _ => exact ⟨false, rfl⟩

/-- A confirmation never raises. -/
theorem confirmInbound_returns (messageId : Option Str) (accepted : Bool) (s : APRSAdapter) :
    ((confirmInbound setup peer messageId accepted).run s).1 = .ok () :=
  (confirmInbound_yields messageId True accepted s).1

/-- A request that Core has executed is completed, unless there is no room. -/
theorem finishRequest_full {messageId : Option Str} {callsign : Str} {request : ProtocolObject}
    {responses : List Bytes} (hpeer : validatePeer key.1 = .ok key.1)
    (hcallsign : normalizeCallsign key.1 "APRS source" = .ok callsign) {s : APRSAdapter}
    (h : Answered setup responses s.core) :
    (finishRequest setup key messageId callsign request frame responses now).Yields s
      fun outcome _ => Raises IsFull outcome := by
  refine Yields.bind (Yields.and (Yields.of_outcome (activateAprs_returns hcallsign h.decodes s))
    (Yields.of_moves (activateAprs_keepsMessages responses))) (fun _ s₁ hs₁ => ?_)
    fun _ _ h => absurd h.1 nofun
  refine Yields.modify_bind (Yields.modify_bind (Yields.modify_bind ?_))
  split
  · obtain ⟨stored, hstored⟩ := sendWasStored_ok h.decodes
    refine Yields.ofExcept_bind (fun _ _ => ?_) fun e he => nomatch hstored.symm.trans he
    refine Yields.bind (Yields.of_outcome (confirmInbound_returns _ _ _)) (fun _ _ _ => Raises.ok _)
      fun _ _ h => absurd h nofun
  · refine Yields.bind (queueResponses_full hpeer _ _ (h.of_messages ?_)) (fun _ _ _ => Raises.ok _)
      fun e _ hs e' he' => hs e' (congrArg Except.error (Except.error.inj he'))
    exact hs₁.2

/-- Nothing of the base class waits, so a cursor confirms nothing. -/
theorem reconcileRequest_returns (callsign : Str) (request : ProtocolObject) {s : APRSAdapter}
    (hqueue : s.queue = []) (hpending : s.pending = .empty) :
    ((reconcileRequest setup peer callsign request).run s).1 = .ok () := by
  cases request with
  | getNewMessages request =>
    rw [reconcileRequest, reconcileMessageCursor, run_get_bind, hqueue, hpending]
    rfl
  | _ => rfl

/-! ### What Core is called with -/

/-- Core is called with requests only. -/
def AddsRequests (s s' : APRSAdapter) : Prop :=
  ∀ x ∈ s'.executions, x ∈ s.executions ∨ ∃ request, decodeFrame x.frame = .ok request ∧
    request.isRequest

instance : IsPreorder APRSAdapter AddsRequests where
  refl _ _ hx := .inl hx
  trans _ _ _ h h' x hx := (h' x hx).elim (h x) .inr

theorem AddsRequests.of_inbound {s s' : APRSAdapter} (h : Keeps APRSAdapter.inbound s s') :
    AddsRequests s s' := by
  intro x hx
  rw [show s'.executions = s.executions from congrArg Inbound.executions h] at hx
  exact .inl hx

theorem KeepsInbound.addsRequests {α : Type} {m : Adapter α} (h : KeepsInbound m) :
    m.Moves AddsRequests :=
  h.mono fun _ _ => .of_inbound

theorem executeFrame_addsRequests {request : ProtocolObject}
    (hdecode : decodeFrame frame = .ok request)
    (hrequest : request.isRequest) : (executeFrame setup key callsign frame).Moves
      AddsRequests := by
  intro s y hy
  obtain ⟨x, -, -, -, hframe, -, hs'⟩ : (executeFrame setup key callsign frame).Yields s _ :=
    executeFrame_yields callsign s
  have hexecutions := congrArg Inbound.executions hs'
  change ((executeFrame setup key callsign frame).run s).2.executions = s.executions ++
    [x] at hexecutions
  rw [hexecutions] at hy
  refine (List.mem_append.mp hy).imp_right fun hy => ?_
  obtain rfl := List.mem_singleton.mp hy
  exact ⟨request, hframe ▸ hdecode, hrequest⟩

theorem completeRequest_addsRequests (messageId : Option Str) :
    (completeRequest setup key messageId frame now).Moves AddsRequests := by
  have hconfirm : ∀ (p : Prop) [Decidable p] (accepted : Bool), (Method.when p
      (confirmInbound setup key.1 messageId accepted)).Moves AddsRequests := fun p _ accepted =>
    KeepsInbound.addsRequests (Moves.when (confirmInbound_keepsInbound _ _))
  intro s
  show Yields _ s fun _ s' => AddsRequests s s'
  refine Yields.ofExcept_bind (fun request hdecode => ?_) fun _ _ => refl_of AddsRequests s
  split
  · exact Yields.of_moves (Moves.bind (hconfirm _ _) fun _ => Moves.pure _)
  · next hrequest =>
    refine Yields.of_moves (Moves.bind (hconfirm _ _) fun _ =>
      Moves.bind (Moves.ofExcept _) fun callsign => ?_)
    refine Moves.bind (reconcileRequest_keepsOuter _ _).inbound.addsRequests fun _ => ?_
    refine Moves.bind (executeFrame_addsRequests hdecode (Bool.eq_true_of_not_eq_false hrequest))
      fun responses => ?_
    refine (finishRequest_keepsExecutions messageId callsign request responses).mono
      fun s s' h x hx => ?_
    rw [show s'.executions = s.executions from h] at hx
    exact .inl hx

theorem receiveFragment_addsRequests (messageId : Option Str) (fragment : APRSFragment) :
    (receiveFragment setup peer messageId fragment now).Moves AddsRequests := by
  have hconfirm : ∀ accepted, (Method.when (commitAckRequested messageId = true)
      (confirmInbound setup peer messageId accepted)).Moves AddsRequests := fun accepted =>
    KeepsInbound.addsRequests (Moves.when (confirmInbound_keepsInbound _ _))
  refine Moves.bind (fun s x hx => .inl hx) fun result => ?_
  rcases result with e | frame | frame
  · exact Moves.ite (Moves.bind (hconfirm _) fun _ => Moves.pure _) (Moves.raise _)
  · exact Moves.bind (hconfirm _) fun _ => Moves.pure _
  · refine Moves.bind (fun s x hx => .inl hx) fun cached => ?_
    cases cached with
    | none => exact completeRequest_addsRequests _
    | some cached => exact (replayRequest_keepsInbound _ _).addsRequests

theorem acknowledgeRequest_addsRequests : (acknowledgeRequest setup key now).Moves
    AddsRequests := by
  intro s x hx
  have hexecutions : ((acknowledgeRequest setup key now).run s).2.executions = s.executions := by
    have hinbound : (acknowledgeRequest setup key now).Yields s _ := acknowledgeRequest_inbound s
    rcases hinbound with h | h
    · exact congrArg Inbound.executions h
    · exact congrArg Inbound.executions h
  rw [hexecutions] at hx
  exact .inl hx

theorem receive_addsRequests (peer body : Str) :
    (receive setup peer body now).Moves AddsRequests := by
  by_cases hparse : ∃ result, parsePacket peer body = .ok result
  · obtain ⟨⟨peer', fragment⟩, parsed⟩ := hparse
    obtain rfl := (parsePacket_eq_ok parsed).1
    rw [receive]
    simp only [parsed]
    refine Moves.bind (fun s x hx => .inl hx) fun found => ?_
    cases found with
    | some replay =>
      refine Moves.bind (Moves.modify fun s x hx => .inl hx) fun _ => ?_
      exact Moves.bind acknowledgeRequest_addsRequests fun _ => Moves.pure _
    | none =>
      dsimp only
      rw [receiveBurst_of_parsed parsed, receiveBurstFragment, receiveCommit_of_parsed parsed]
      refine Moves.bind (Moves.modify fun s x hx => .inl hx) fun _ => ?_
      refine Moves.bind (receiveFragment_addsRequests _ _) fun _ => ?_
      refine Moves.bind (Moves.when acknowledgeRequest_addsRequests) fun _ => ?_
      exact Moves.bind (Moves.when (Moves.modify fun s x hx => .inl hx)) fun _ => Moves.pure _
  · rw [not_exists] at hparse
    exact (receive_unparsed hparse).addsRequests

/-- Every frame that Core was called with is a request. -/
def APRSAdapter.Requested (s : APRSAdapter) : Prop :=
  ∀ x ∈ s.executions, ∃ request, decodeFrame x.frame = .ok request ∧ request.isRequest

theorem step_requested {s : APRSAdapter} (h : s.Requested) (call : Call) :
    (step setup s call).Requested := by
  have hadds : AddsRequests s (step setup s call) := by
    by_cases hcall : call.isInbound = false
    · exact .of_inbound (step_inbound hcall s)
    cases call with
    | receive peer body now =>
      rw [step_receive]
      exact receive_addsRequests peer body s
    | poll now =>
      rw [step_poll]
      obtain ⟨hexecutions, -⟩ : (pollEmissions setup now).Yields s _ := pollEmissions_inbound s
      intro x hx
      rw [hexecutions] at hx
      exact .inl hx
    | _ => exact absurd rfl hcall
  exact fun x hx => (hadds x hx).elim (h x) id

variable (setup) in
theorem runState_requested (core : CoreState) (calls : List Call) :
    ∀ i ≤ calls.length, (runState setup core calls i).Requested :=
  stateAt_invariant (I := APRSAdapter.Requested) (fun _ h => absurd h List.not_mem_nil)
    fun _ _ h => step_requested h _

end OpenQSP
