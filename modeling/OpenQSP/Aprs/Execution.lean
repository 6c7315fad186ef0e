import OpenQSP.Aprs.Inbound
import OpenQSP.Server.Delivery
import OpenQSP.Server.Responses

/-!
# What an execution did

An execution is one call of `handle_frame`. Routing a new message queues it and marks it, but
leaves the messages of the database alone; so an execution that was answered with `STORED` has
added exactly its own message.

## Main definitions

* `KeepsMessages` — a method leaves the messages of the database alone
* `Execution.Stores` — an execution has added exactly one message

## Main results

* `Execution.Genuine.stores`
-/

namespace OpenQSP

open APRSAdapter Method

variable {setup : Setup} {peer : Str}

/-- The method leaves the messages of the database alone. -/
abbrev KeepsMessages {α : Type} (m : Adapter α) : Prop := m.Moves (Keeps fun s => s.core.messages)

theorem onCore_keepsMessages {α : Type} {m : Method PyError CoreState α}
    (h : m.Moves (Keeps CoreState.messages)) : KeepsMessages (onCore m) := fun s => h s.core

theorem supersedeForProactive_core (s : APRSAdapter) : (supersedeForProactive peer s).core =
    s.core := by
  rw [supersedeForProactive]
  split
  · rfl
  · split <;> rfl

theorem allocate_keepsCore : (allocate peer).Moves (Keeps APRSAdapter.core) := by
  refine Moves.get_bind fun s => Moves.bind (Moves.modify fun _ => rfl) fun _ => ?_
  split
  · exact Moves.pure _
  · exact Moves.raise _

/-- Queueing does not touch the core. -/
theorem queueFrame_keepsCore (frame : Bytes) (options : QueueOptions) :
    (queueFrame setup peer frame options).Moves (Keeps APRSAdapter.core) := by
  refine Moves.bind (Moves.ofExcept _) fun _ => ?_
  refine Moves.bind (Moves.when (Moves.modify supersedeForProactive_core)) fun _ => ?_
  refine Moves.bind allocate_keepsCore fun _ => ?_
  refine Moves.bind (Moves.ofExcept _) fun fragments => ?_
  refine Moves.get_bind fun s => ?_
  refine Moves.bind (Moves.ofExcept _) fun _ => ?_
  refine Moves.bind (Moves.ofExcept _) fun _ => ?_
  exact Moves.bind (Moves.modify fun _ => rfl) fun _ => Moves.pure _

theorem sendImmediately_keepsCore (packet : OutboundPacket) :
    (sendImmediately packet).Moves (Keeps APRSAdapter.core) := Moves.modify fun _ => rfl

theorem compactStoredResult_keepsCore {key : TransactionKey} {now : ℚ} :
    (compactStoredResult setup key now).Moves (Keeps APRSAdapter.core) := by
  refine Moves.bind (fun _ => rfl) fun found => ?_
  cases found with
  | none => exact Moves.pure _
  | some replay =>
    refine Moves.bind (Moves.ofExcept _) fun _ => Moves.when ?_
    refine Moves.bind (Moves.modify fun _ => rfl) fun _ => ?_
    exact Moves.bind (Moves.ofExcept _) fun _ => sendImmediately_keepsCore _

/-- Acknowledging a request does not touch the core. -/
theorem acknowledgeRequest_keepsCore {key : TransactionKey} {now : ℚ} :
    (acknowledgeRequest setup key now).Moves (Keeps APRSAdapter.core) := by
  refine Moves.bind (Moves.ofExcept _) fun _ => ?_
  exact Moves.bind (sendImmediately_keepsCore _) fun _ => compactStoredResult_keepsCore

theorem queueFrame_keepsMessages (frame : Bytes) (options : QueueOptions) :
    KeepsMessages (queueFrame setup peer frame options) :=
  (queueFrame_keepsCore frame options).mono fun _ _ h => congrArg CoreState.messages h

theorem deliverMessage_keepsMessages (message : Message) (endpoint : Str) :
    KeepsMessages (deliverMessage setup message endpoint) := by
  refine Moves.bind (Moves.ofExcept _) fun _ => ?_
  exact Moves.bind (queueFrame_keepsMessages _ _) fun _ =>
    onCore_keepsMessages (CoreState.markAprsPending_messages _)

theorem routeMessage_keepsMessages (message : Message) :
    KeepsMessages (routeMessage setup message) := by
  refine Moves.ite (Moves.catchError ?_ fun _ => Moves.pure _) (Moves.pure _)
  refine Moves.get_bind fun s => ?_
  refine Moves.bind (Moves.ofExcept _) fun endpoint => ?_
  cases endpoint with
  | none => exact Moves.pure _
  | some endpoint => exact deliverMessage_keepsMessages _ _

theorem activateAprs_keepsMessages (responses : List Bytes) :
    KeepsMessages (activateAprs setup peer responses) := by
  refine Moves.ite (Moves.pure _) (Moves.bind (Moves.ofExcept _) fun _ => ?_)
  refine Moves.ite (Moves.pure _) (Moves.bind (Moves.ofExcept _) fun _ => ?_)
  exact onCore_keepsMessages (CoreState.setAprs_messages _ _)

theorem confirmInbound_keepsMessages (messageId : Option Str) (accepted : Bool) :
    KeepsMessages (confirmInbound setup peer messageId accepted) := by
  refine Moves.ite (Moves.pure _) ?_
  cases messageId with
  | none => exact Moves.pure _
  | some messageId => exact Moves.modify fun _ => rfl

theorem markDelivery_keepsMessages (delivery : Option Delivery) :
    KeepsMessages (markDelivery (CoreState.markAprsPending setup.stores) delivery) := by
  cases delivery with
  | none => exact Moves.pure _
  | some delivery => exact onCore_keepsMessages (CoreState.markAprsPending_messages delivery)

theorem reportDelivery_keepsMessages (order : Option ℕ) (delivered : Bool)
    (delivery : Option Delivery) :
    KeepsMessages (reportDelivery setup order delivered delivery) := by
  cases delivery with
  | none => exact Moves.pure _
  | some delivery =>
    refine Moves.bind (Moves.modify fun _ => rfl) fun _ => onCore_keepsMessages ?_
    cases delivered with
    | false => exact CoreState.markAprsFailed_messages delivery
    | true => exact CoreState.markAprsDelivered_messages delivery

theorem reconcileRequest_keepsMessages (callsign : Str) (request : ProtocolObject) :
    KeepsMessages (reconcileRequest setup peer callsign request) := by
  unfold reconcileRequest
  split
  · refine Moves.get_bind fun s => ?_
    refine Moves.bind (Moves.modify fun _ => rfl) fun _ => ?_
    exact Moves.forM fun _ _ => reportDelivery_keepsMessages _ _ _
  · exact Moves.pure _

section Requests

variable {key : TransactionKey} {frame : Bytes} {now : ℚ}

theorem finishRequest_keepsMessages (messageId : Option Str) (callsign : Str)
    (request : ProtocolObject) (responses : List Bytes) :
    KeepsMessages (finishRequest setup key messageId callsign request frame responses now) := by
  refine Moves.bind (activateAprs_keepsMessages _) fun _ => ?_
  refine Moves.bind (Moves.modify fun _ => rfl) fun _ =>
    Moves.bind (Moves.modify fun _ => rfl) fun _ => ?_
  refine Moves.bind (Moves.modify fun _ => rfl) fun _ => Moves.ite ?_ ?_
  · exact Moves.bind (Moves.ofExcept _) fun _ =>
      Moves.bind (confirmInbound_keepsMessages _ _) fun _ => Moves.pure _
  · refine Moves.bind (Moves.forM fun response _ => ?_) fun _ => Moves.pure _
    refine Moves.bind (Moves.ofExcept _) fun delivery => ?_
    exact Moves.bind (queueFrame_keepsMessages _ _) fun _ => markDelivery_keepsMessages _

theorem finishRequest_keepsExecutions (messageId : Option Str) (callsign : Str)
    (request : ProtocolObject) (responses : List Bytes) :
    (finishRequest setup key messageId callsign request frame responses now).Moves
      (Keeps APRSAdapter.executions) := by
  have hkeep : ∀ {α : Type} {m : Adapter α}, KeepsInbound m →
    m.Moves (Keeps APRSAdapter.executions) :=
    fun h => h.mono fun _ _ h => congrArg Inbound.executions h
  refine Moves.bind (hkeep (activateAprs_keepsOuter _).inbound) fun _ => ?_
  refine Moves.bind (Moves.modify fun _ => rfl) fun _ =>
    Moves.bind (Moves.modify fun _ => rfl) fun _ => ?_
  refine Moves.bind (Moves.modify fun _ => rfl) fun _ => Moves.ite ?_ ?_
  · exact Moves.bind (Moves.ofExcept _) fun _ =>
      Moves.bind (hkeep (confirmInbound_keepsInbound _ _)) fun _ => Moves.pure _
  · exact Moves.bind (hkeep (queueResponses_keepsOuter _ _).inbound) fun _ => Moves.pure _

theorem replayRequest_keepsMessages (messageId : Option Str) (cached : Replay) :
    KeepsMessages (replayRequest setup key messageId cached frame) := by
  have hconfirm : ∀ (p : Prop) [Decidable p] (accepted : Bool),
      KeepsMessages (Method.when p (confirmInbound setup key.1 messageId accepted)) :=
    fun p _ accepted => Moves.when (confirmInbound_keepsMessages _ _)
  refine Moves.ite (Moves.bind (hconfirm _ _) fun _ => Moves.pure _) ?_
  refine Moves.bind (Moves.ofExcept _) fun request => ?_
  refine Moves.bind (activateAprs_keepsMessages _) fun _ => ?_
  refine Moves.bind (Moves.modify fun _ => rfl) fun _ => Moves.ite ?_ ?_
  · exact Moves.bind (Moves.ofExcept _) fun _ =>
      Moves.bind (confirmInbound_keepsMessages _ _) fun _ => Moves.pure _
  · refine Moves.bind (hconfirm _ _) fun _ => ?_
    refine Moves.bind (Moves.forM fun response _ => ?_) fun _ => Moves.pure _
    exact Moves.bind (queueFrame_keepsMessages _ _) fun _ => Moves.pure _

end Requests

/-- The responses of a request come from its handler, and so do the messages it leaves. -/
theorem dispatchRouted_yields (callsign : Str) (request : ProtocolObject) (s : APRSAdapter) :
    (dispatchRouted setup callsign request).Yields s fun outcome s' =>
      ∀ responses, outcome = .ok responses → ∃ events t,
        (dispatch setup.stores s.core.clock callsign request).run s.core.tables =
          (.ok (responses, events), t) ∧ s'.core.messages = t.messages := by
  refine Yields.get_bind ?_
  refine Yields.bind (Q := fun outcome s₁ =>
      outcome = ((dispatch setup.stores s.core.clock callsign request).run s.core.tables).1 ∧
      s₁.core.tables = ((dispatch setup.stores s.core.clock callsign request).run s.core.tables).2)
    ⟨rfl, rfl⟩ ?_ fun _ _ _ => nofun
  rintro ⟨responses, events⟩ s₁ ⟨houtcome, htables⟩
  refine Yields.bind_of_moves (Moves.forM fun event _ => routeMessage_keepsMessages event)
    (fun _ s₂ hs₂ => ?_) fun _ _ _ => nofun
  intro responses' hresponses
  obtain rfl := Except.ok.inj hresponses
  refine ⟨events, _, Prod.ext houtcome.symm rfl, ?_⟩
  exact Eq.trans hs₂ (congrArg Tables.messages htables)

/-- The execution has added exactly one message: the one of its `SEND_MESSAGE`. -/
def Execution.Stores (x : Execution) : Prop :=
  ∃ value author message t, decodeFrame x.frame = .ok (.sendMessage value) ∧
    validateCallsign x.callsign "authenticated_callsign" = .ok author ∧
    Accepts x.before value.createdAt author value.recipient value.body t message ∧
    x.after.messages = t.messages

/-- A `STORED` is never a lie. -/
theorem Execution.Genuine.stores {x : Execution} (h : x.Genuine setup) {data : Bytes}
    (houtcome : x.outcome = .ok [data]) (hdata : decodeFrame data = .ok .stored) : x.Stores := by
  obtain ⟨s, hbefore, hrun, hafter⟩ := h
  -- A response is decoded back, so the handler itself answered `STORED`.
  have hresponse : ∀ response, encodeFrame response false = .ok data → response = .stored :=
    fun response hencode => Except.ok.inj ((decodeFrame_of_encodeFrame hencode).symm.trans hdata)
  rcases handleFrame_eq_ok (hrun.trans houtcome) with ⟨request, responses, hrequest, hdispatch,
    hencoded⟩ | ⟨-, errors, hencoded⟩
  · obtain ⟨events, t, hdispatch', hmessages⟩ :=
      dispatchRouted_yields x.callsign request s responses (congrArg Prod.fst hdispatch)
    have hstored : .stored ∈ responses := by
      obtain ⟨response, rest, hencode, -, rfl⟩ := List.forall₂_cons_right_iff.mp hencoded
      exact hresponse response hencode ▸ List.mem_cons_self
    obtain ⟨value, author, message, rfl, hauthor, haccepts⟩ := dispatch_stored hdispatch' hstored
    refine ⟨value, author, message, t, hrequest, hauthor, hbefore ▸ haccepts, ?_⟩
    rw [← hafter, ← hmessages, hdispatch]
    rfl
  · cases errors with
    | nil => cases hencoded
    | cons error errors => exact absurd (hresponse _ (List.forall₂_cons.mp hencoded).1) nofun

/-- One row is new, and no other row changed. -/
theorem Execution.Stores.entries {x : Execution} (h : x.Stores) : ∃ row,
    x.after.messages.entries = x.before.messages.entries ++ [row] := by
  obtain ⟨value, author, message, t, -, -, haccepts, hmessages⟩ := h
  obtain ⟨row, -, hentries, -⟩ := haccepts.stored
  exact ⟨row, by rw [hmessages, hentries]⟩

end OpenQSP
