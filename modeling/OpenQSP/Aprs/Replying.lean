import OpenQSP.Aprs.History

/-!
# What is answered at once

`receive` answers some packets before anything is queued: a message id is rejected, a request is
acknowledged, and the result of a stored `SEND_MESSAGE` is reported. Such an answer waits for the
next `poll`. Nothing else puts a packet there.

## Main definitions

* `Reply` — an answer to a peer
* `Replies` — a method adds nothing but answers to what waits
* `AsksFor` — a request for the fragments that are missing

## Main results

* `receive_replies`
* `pollEmissions_controls` — the controls that `poll` sends
* `runState_replies` — in every run only answers wait
-/

namespace OpenQSP

open APRSAdapter Method

variable {setup : Setup} {peer : Str} {key : TransactionKey} {now : ℚ}

/-- An answer to a peer. -/
inductive Reply (setup : Setup) (peer : Str) : OutboundPacket → Prop
  | rejected {messageId : Str} (base36 : messageId.all PyChar.isBase36) :
      Reply setup peer ⟨setup.serviceCallsign, peer, str "rej" ++ messageId, false⟩
  | acknowledged {transactionId body : Str} (encoded : encodeBurstAck transactionId = .ok body) :
      Reply setup peer ⟨setup.serviceCallsign, peer, body, false⟩
  | stored {transactionId body : Str} (encoded : encodeStored transactionId = .ok body) :
      Reply setup peer ⟨setup.serviceCallsign, peer, body, false⟩

/-- What waits afterwards waited before, or it is an answer to a valid address. -/
def Replies (setup : Setup) (s s' : APRSAdapter) : Prop :=
  ∀ packet ∈ s'.immediate, packet ∈ s.immediate ∨
    ∃ peer, validatePeer peer = .ok peer ∧ Reply setup peer packet

instance : IsPreorder APRSAdapter (Replies setup) where
  refl _ _ h := .inl h
  trans _ _ _ h h' packet hpacket := (h' packet hpacket).elim (h packet) .inr

theorem Replies.of_eq {s s' : APRSAdapter} (h : s'.immediate = s.immediate) : Replies setup s s' :=
  fun _ hpacket => .inl (h ▸ hpacket)

theorem KeepsOuter.replies {α : Type} {m : Adapter α} (h : KeepsOuter m) :
    m.Moves (Replies setup) := h.immediate.mono fun _ _ h => .of_eq h

theorem modify_replies {f : APRSAdapter → APRSAdapter} (h : ∀ s, (f s).immediate = s.immediate) :
    (modify f : Adapter Unit).Moves (Replies setup) := Moves.modify fun s => .of_eq (h s)

theorem onReplay_replies {α : Type} (f : ReplayCache → α × ReplayCache) :
    (onReplay f).Moves (Replies setup) := fun _ => .of_eq rfl

theorem sendImmediately_replies {packet : OutboundPacket} (hpeer : validatePeer peer = .ok peer)
    (h : Reply setup peer packet) : (sendImmediately packet).Moves (Replies setup) := by
  refine Moves.modify fun s packet' hpacket => ?_
  rcases List.mem_append.mp hpacket with hpacket | hpacket
  · exact .inl hpacket
  · exact .inr ⟨peer, hpeer, List.mem_singleton.mp hpacket ▸ h⟩

section Receive

variable {messageId : Option Str} {body : Str} {frame : Bytes}

/-- A message id is one to five characters in base 36. -/
theorem trailingMessageId_base36 {messageId : Str} (h : trailingMessageId body = some messageId) :
    messageId.all PyChar.isBase36 := by
  obtain ⟨⟨-, -, -, hall⟩, heq⟩ := Option.ite_none_right_eq_some.mp h
  exact Option.some.inj heq ▸ hall

/-- The text of a message id is printable. -/
def PrintableId (messageId : Option Str) : Prop := ∀ id ∈ messageId, id.all PyChar.isBase36

theorem printableId_trailing (body : Str) : PrintableId (trailingMessageId body) :=
  fun _ h => trailingMessageId_base36 h

theorem confirmInbound_replies (hpeer : validatePeer peer = .ok peer) (hid : PrintableId messageId)
    (accepted : Bool) : (confirmInbound setup peer messageId accepted).Moves (Replies setup) := by
  refine Moves.ite (Moves.pure _) ?_
  cases messageId with
  | none => exact Moves.pure _
  | some id => exact sendImmediately_replies hpeer (.rejected (hid id rfl))

theorem compactStoredResult_replies (hpeer : validatePeer key.1 = .ok key.1) :
    (compactStoredResult setup key now).Moves (Replies setup) := by
  refine Moves.bind (onReplay_replies _) fun replay => ?_
  split
  · exact Moves.pure _
  · refine Moves.bind (Moves.ofExcept _) fun stored => Moves.when ?_
    refine Moves.bind (modify_replies fun _ => rfl) fun _ => Moves.ofExcept_bind fun _ hresult => ?_
    exact sendImmediately_replies hpeer (.stored hresult)

theorem acknowledgeRequest_replies (hpeer : validatePeer key.1 = .ok key.1) :
    (acknowledgeRequest setup key now).Moves (Replies setup) :=
  Moves.ofExcept_bind fun _ hack => Moves.bind (sendImmediately_replies hpeer (.acknowledged hack))
    fun _ => compactStoredResult_replies hpeer

theorem executeFrame_replies (callsign : Str) :
    (executeFrame setup key callsign frame).Moves (Replies setup) := by
  have hkeeps : KeepsOuter (handleFrame (dispatchRouted setup) callsign frame) :=
    handleFrame_moves (fun _ _ => dispatchRouted_keepsOuter _ _) callsign frame
  exact fun s => hkeeps.replies s

theorem finishRequest_replies (hpeer : validatePeer key.1 = .ok key.1) (hid : PrintableId messageId)
    (callsign : Str) (request : ProtocolObject) (responses : List Bytes) :
    (finishRequest setup key messageId callsign request frame responses now).Moves
      (Replies setup) := by
  refine Moves.bind (activateAprs_keepsOuter _).replies fun _ => ?_
  refine Moves.bind (modify_replies fun _ => rfl) fun _ => ?_
  refine Moves.bind (modify_replies fun _ => rfl) fun _ => ?_
  refine Moves.bind (modify_replies fun _ => rfl) fun _ => Moves.ite ?_ ?_
  · exact Moves.bind (Moves.ofExcept _) fun _ =>
      Moves.bind (confirmInbound_replies hpeer hid _) fun _ => Moves.pure _
  · exact Moves.bind (queueResponses_keepsOuter _ _).replies fun _ => Moves.pure _

theorem completeRequest_replies (hpeer : validatePeer key.1 = .ok key.1)
    (hid : PrintableId messageId) :
    (completeRequest setup key messageId frame now).Moves (Replies setup) := by
  refine Moves.bind (Moves.ofExcept _) fun request => Moves.ite ?_ ?_
  · exact Moves.bind (Moves.when (confirmInbound_replies hpeer hid _)) fun _ => Moves.pure _
  · refine Moves.bind (Moves.when (confirmInbound_replies hpeer hid _)) fun _ => ?_
    refine Moves.bind (Moves.ofExcept _) fun callsign => ?_
    refine Moves.bind (reconcileRequest_keepsOuter _ _).replies fun _ => ?_
    exact Moves.bind (executeFrame_replies callsign) fun _ => finishRequest_replies hpeer hid _ _ _

theorem replayRequest_replies (hpeer : validatePeer key.1 = .ok key.1) (hid : PrintableId messageId)
    (cached : Replay) :
    (replayRequest setup key messageId cached frame).Moves (Replies setup) := by
  refine Moves.ite (Moves.bind (Moves.when (confirmInbound_replies hpeer hid _)) fun _ =>
    Moves.pure _) ?_
  refine Moves.bind (Moves.ofExcept _) fun request => ?_
  refine Moves.bind (activateAprs_keepsOuter _).replies fun _ => ?_
  refine Moves.bind (modify_replies fun _ => rfl) fun _ => Moves.ite ?_ ?_
  · exact Moves.bind (Moves.ofExcept _) fun _ =>
      Moves.bind (confirmInbound_replies hpeer hid _) fun _ => Moves.pure _
  · refine Moves.bind (Moves.when (confirmInbound_replies hpeer hid _)) fun _ => ?_
    refine Moves.bind (Moves.forM fun _ _ => ?_) fun _ => Moves.pure _
    exact Moves.bind (queueFrame_keepsOuter _ _).replies fun _ => Moves.pure _

theorem receiveFragment_replies (hpeer : validatePeer peer = .ok peer) (hid : PrintableId messageId)
    (fragment : APRSFragment) :
    (receiveFragment setup peer messageId fragment now).Moves (Replies setup) := by
  have hadd : (onReassembly (Reassembler.add setup.config.reassembly peer fragment now)).Moves
      (Replies setup) := fun _ => .of_eq rfl
  refine Moves.bind hadd fun added => ?_
  split
  · refine Moves.ite ?_ (Moves.raise _)
    exact Moves.bind (Moves.when (confirmInbound_replies hpeer hid _)) fun _ => Moves.pure _
  · exact Moves.bind (Moves.when (confirmInbound_replies hpeer hid _)) fun _ => Moves.pure _
  · refine Moves.bind (onReplay_replies _) fun cached => ?_
    split
    · exact replayRequest_replies hpeer hid _
    · exact completeRequest_replies hpeer hid

theorem receiveCommit_replies : (receiveCommit setup peer body now).Moves (Replies setup) := by
  rw [receiveCommit]
  split
  · exact Moves.ite (Moves.pure _) (Moves.raise _)
  · next peer' hpeer =>
    obtain rfl := validatePeer_eq_ok hpeer
    have hid := printableId_trailing body
    split
    · exact (receiveLegacyAck_keepsOuter _).replies
    · refine Moves.bind (Moves.when (confirmInbound_replies hpeer hid _)) fun _ => ?_
      split
      · refine Moves.ite ?_ (Moves.raise _)
        exact Moves.bind (Moves.when (confirmInbound_replies hpeer hid _)) fun _ => Moves.pure _
      · exact receiveFragment_replies hpeer hid _

theorem receiveBurstFragment_replies (hpeer : validatePeer peer = .ok peer)
    (fragment : APRSFragment) :
    (receiveBurstFragment setup peer body fragment now).Moves (Replies setup) := by
  refine Moves.bind (modify_replies fun _ => rfl) fun _ => ?_
  refine Moves.bind receiveCommit_replies fun disposition => ?_
  refine Moves.bind (Moves.when (acknowledgeRequest_replies hpeer)) fun _ => ?_
  exact Moves.bind (Moves.when (modify_replies fun _ => rfl)) fun _ => Moves.pure _

theorem receiveBurst_replies : (receiveBurst setup peer body now).Moves (Replies setup) := by
  rw [receiveBurst]
  split
  · exact Moves.ite (Moves.pure _) (Moves.raise _)
  · next peer' hpeer =>
    obtain rfl := validatePeer_eq_ok hpeer
    split
    · exact (receiveControl_keepsOuter _).replies
    · split
      · exact Moves.ite receiveCommit_replies (Moves.raise _)
      · exact receiveBurstFragment_replies hpeer _

/-- Whatever is received, only answers are added to what waits. -/
theorem receive_replies : (receive setup peer body now).Moves (Replies setup) := by
  rw [receive]
  split
  · exact Moves.ite receiveBurst_replies (Moves.raise _)
  · next peer' fragment hparse =>
    obtain ⟨rfl, hpeer, -⟩ := parsePacket_eq_ok hparse
    refine Moves.bind (onReplay_replies _) fun cached => ?_
    split
    · refine Moves.bind (modify_replies fun _ => rfl) fun _ => ?_
      exact Moves.bind (acknowledgeRequest_replies hpeer) fun _ => Moves.pure _
    · exact receiveBurst_replies

end Receive

/-! ### Polling -/

/-- Every control among the emissions satisfies `P`. -/
def Controls (P : OutboundPacket → Prop) (emissions : List Emission) : Prop :=
  ∀ packet, .control packet ∈ emissions → P packet

/-- Whatever the method returns, the controls in it satisfy `P`. -/
abbrev ReturnsControls (P : OutboundPacket → Prop) (m : Adapter (List Emission)) : Prop :=
  ∀ s, m.Yields s fun outcome _ => ∀ es, outcome = .ok es → Controls P es

section Controls

variable {P : OutboundPacket → Prop}

theorem controls_nil : Controls P [] := fun _ hmem => absurd hmem List.not_mem_nil

theorem controls_frame (tx : BurstTx) (packets : List OutboundPacket) :
    Controls P [.frame tx packets] := by
  intro packet hmem
  cases List.mem_singleton.mp hmem

theorem Controls.append {es es' : List Emission} (h : Controls P es) (h' : Controls P es') :
    Controls P (es ++ es') := fun packet hmem =>
  (List.mem_append.mp hmem).elim (h packet) (h' packet)

theorem ReturnsControls.pure {es : List Emission} (h : Controls P es) :
    ReturnsControls P (Pure.pure es) := fun _ _ heq => Except.ok.inj heq ▸ h

theorem ReturnsControls.bind {α : Type} {m : Adapter α} {f : α → Adapter (List Emission)}
    (h : ∀ a, ReturnsControls P (f a)) : ReturnsControls P (m >>= f) := fun _ =>
  Yields.bind (Q := fun _ _ => True) trivial (fun a s' _ => h a s') fun _ _ _ _ heq => by cases heq

theorem mapM_returnsControls {β : Type} {f : β → Adapter (List Emission)} {l : List β}
    (h : ∀ b ∈ l, ReturnsControls P (f b)) (s : APRSAdapter) :
    (l.mapM f).Yields s fun outcome _ => ∀ as, outcome = .ok as → Controls P as.flatten := by
  refine Yields.mono (Yields.mapM
    (I := fun as l' _ => Controls P as.flatten ∧ ∀ b ∈ l', b ∈ l)
    (E := fun _ _ => True) (fun as b l' s₁ hI => ?_) l [] s
    ⟨controls_nil, fun _ hb => hb⟩) fun outcome s' h => ?_
  · refine Yields.mono (h b (hI.2 b List.mem_cons_self) s₁) fun outcome s₂ hs₂ =>
      ⟨fun es hes => ⟨?_, fun b' hb' => hI.2 b' (List.mem_cons_of_mem _ hb')⟩, fun _ _ => trivial⟩
    rw [List.flatten_append, List.flatten_singleton]
    exact hI.1.append (hs₂ es hes)
  · exact fun as has => (h.1 as has).1

/-- A request for what is missing of an inbound transaction. -/
def AsksFor (setup : Setup) (now : ℚ) (e : TransactionKey × RxProgress) (packet : OutboundPacket) :
    Prop :=
  e.2.deadline ≤ now ∧ ∃ body, encodeMissing e.1.2 e.2.missing = .ok body ∧
    packet = ⟨setup.serviceCallsign, e.1.1, body, false⟩

theorem pollProgress_controls (e : TransactionKey × RxProgress) :
    ReturnsControls (AsksFor setup now e) (pollProgress setup now e) := by
  rw [pollProgress]
  split
  · exact .pure controls_nil
  next hdue =>
  split
  · exact .bind fun _ => .pure controls_nil
  · intro s
    refine Yields.ofExcept_bind (fun body hbody => ?_) fun _ _ _ heq => by cases heq
    refine ReturnsControls.bind (fun _ => .pure fun packet hmem => ?_) s
    exact ⟨not_lt.mp hdue, body, hbody, Emission.control.inj (List.mem_singleton.mp hmem)⟩

theorem pollActive_controls (e : Str × BurstTx) : ReturnsControls P (pollActive setup now e) := by
  have hfail : ReturnsControls P (do failOutbound setup e.1 e.2; return []) :=
    .bind fun _ => .pure controls_nil
  rw [pollActive]
  split
  · exact .pure controls_nil
  · exact hfail
  · split
    · exact hfail
    refine .bind fun s => ?_
    split
    · exact .bind fun _ => .pure controls_nil
    · exact .bind fun _ => .pure (controls_frame _ _)

theorem pollQueued_controls (tx : BurstTx) : ReturnsControls P (pollQueued setup now tx) := by
  refine .bind fun s => ?_
  split
  · exact .pure controls_nil
  split
  · exact .pure controls_nil
  · exact .bind fun _ => .pure (controls_frame _ _)

end Controls

variable (setup now) in
/-- The controls that `poll` sends are the answers that waited, and requests for what is missing of
the inbound transactions. -/
theorem pollEmissions_controls (s : APRSAdapter) :
    (pollEmissions setup now).Yields s fun outcome _ => ∀ es, outcome = .ok es →
      Controls (fun packet => packet ∈ s.immediate ∨
        ∃ e ∈ s.rxProgress.entries, AsksFor setup now e packet) es := by
  have htake : takeImmediate.Yields s fun outcome s' =>
      outcome = .ok s.immediate ∧ s' = { s with immediate := [] } := ⟨rfl, rfl⟩
  refine Yields.bind htake (fun immediate s₁ hs₁ => ?_) fun _ _ _ _ heq => by cases heq
  obtain ⟨himmediate, rfl⟩ := hs₁
  obtain rfl := Except.ok.inj himmediate
  have hprogress : (pollAllProgress setup now).Yields { s with immediate := [] } fun outcome _ =>
      ∀ as, outcome = .ok as → Controls (fun packet => ∃ e ∈ s.rxProgress.entries,
        AsksFor setup now e packet) as.flatten :=
    Yields.get_bind (mapM_returnsControls (fun e he => fun s' => Yields.mono
      (pollProgress_controls e s') fun _ _ h es hes packet hmem => ⟨e, he, h es hes packet hmem⟩) _)
  refine Yields.bind hprogress (fun progress s₂ hs₂ => ?_) fun _ _ _ _ heq => by cases heq
  have hactive : (pollAllActive setup now).Yields s₂ fun outcome _ =>
      ∀ as, outcome = .ok as → Controls (fun _ => False) as.flatten :=
    Yields.get_bind (mapM_returnsControls (fun e _ => pollActive_controls e) _)
  refine Yields.bind hactive (fun active s₃ hs₃ => ?_) fun _ _ _ _ heq => by cases heq
  have hqueued : (pollAllQueued setup now).Yields s₃ fun outcome _ =>
      ∀ as, outcome = .ok as → Controls (fun _ => False) as.flatten :=
    Yields.get_bind (mapM_returnsControls (fun tx _ => pollQueued_controls tx) _)
  refine Yields.bind hqueued (fun queued s₄ hs₄ => ?_) fun _ _ _ _ heq => by cases heq
  intro es hes
  obtain rfl : _ = es := Except.ok.inj hes
  refine Controls.append (.append (.append (fun packet hmem => .inl ?_) fun packet hmem =>
    .inr (hs₂ _ rfl packet hmem)) fun packet hmem => (hs₃ _ rfl packet hmem).elim)
    fun packet hmem => (hs₄ _ rfl packet hmem).elim
  obtain ⟨packet', hpacket', heq⟩ := List.mem_map.mp hmem
  exact Emission.control.inj heq ▸ hpacket'

/-! ### Runs -/

theorem pollProgress_replies (e : TransactionKey × RxProgress) :
    (pollProgress setup now e).Moves (Replies setup) := by
  refine Moves.ite (Moves.pure _) (Moves.ite ?_ ?_)
  · exact Moves.bind (modify_replies fun _ => rfl) fun _ => Moves.pure _
  · exact Moves.bind (Moves.ofExcept _) fun _ =>
      Moves.bind (modify_replies fun _ => rfl) fun _ => Moves.pure _

theorem pollActive_replies (e : Str × BurstTx) :
    (pollActive setup now e).Moves (Replies setup) := by
  have hfail : (do failOutbound setup e.1 e.2; return ([] : List Emission)).Moves
      (Replies setup) := Moves.bind (failOutbound_keepsOuter _).replies fun _ => Moves.pure _
  rw [pollActive]
  split
  · exact Moves.pure _
  · exact hfail
  · refine Moves.ite hfail (Moves.get_bind fun s => Moves.ite ?_ ?_)
    · exact Moves.bind (modify_replies fun _ => rfl) fun _ => Moves.pure _
    · exact Moves.bind (modify_replies fun _ => rfl) fun _ => Moves.pure _

theorem pollQueued_replies (tx : BurstTx) : (pollQueued setup now tx).Moves (Replies setup) := by
  refine Moves.get_bind fun s => Moves.ite (Moves.pure _) (Moves.ite (Moves.pure _) ?_)
  exact Moves.bind (modify_replies fun _ => rfl) fun _ => Moves.pure _

theorem pollEmissions_replies : (pollEmissions setup now).Moves (Replies setup) := by
  have htake : takeImmediate.Moves (Replies setup) := Moves.get_bind fun _ =>
    Moves.bind (Moves.modify fun s _ hpacket => absurd hpacket List.not_mem_nil) fun _ =>
      Moves.pure _
  refine Moves.bind htake fun _ => ?_
  refine Moves.bind (Moves.get_bind fun _ =>
    Moves.mapM fun e _ => pollProgress_replies e) fun _ => ?_
  refine Moves.bind (Moves.get_bind fun _ => Moves.mapM fun e _ => pollActive_replies e) fun _ => ?_
  refine Moves.bind (Moves.get_bind fun _ => Moves.mapM fun e _ => pollQueued_replies e) fun _ => ?_
  exact Moves.bind (modify_replies fun _ => rfl) fun _ => Moves.pure _

theorem connectionLost_replies : (connectionLost setup).Moves (Replies setup) := by
  refine Moves.get_bind fun s => Moves.bind
    (Moves.modify fun _ _ hpacket => absurd hpacket List.not_mem_nil) fun _ => ?_
  exact Moves.forM fun _ _ => (reportDelivery_keepsOuter _ _ _).replies

theorem step_replies (s : APRSAdapter) (call : Call) : Replies setup s (step setup s call) := by
  have hmoves : (call.method setup).Moves (Replies setup) := by
    cases call with
    | receive peer body now => exact Moves.bind receive_replies fun _ => Moves.pure _
    | poll now => exact Moves.bind pollEmissions_replies fun _ => Moves.pure _
    | queueFrame peer frame options =>
      exact Moves.bind (queueFrame_keepsOuter _ _).replies fun _ => Moves.pure _
    | deliverMessage message endpoint =>
      exact Moves.bind (deliverMessage_keepsOuter _ _).replies fun _ => Moves.pure _
    | connectionLost => exact Moves.bind connectionLost_replies fun _ => Moves.pure _
    | core change => exact Moves.bind (modify_replies fun _ => rfl) fun _ => Moves.pure _
  exact hmoves s

/-- In every run only answers wait for the next `poll`. -/
theorem runState_replies (setup : Setup) (core : CoreState) (calls : List Call) :
    ∀ i ≤ calls.length, ∀ packet ∈ (runState setup core calls i).immediate,
      ∃ peer, validatePeer peer = .ok peer ∧ Reply setup peer packet :=
  stateAt_invariant (I := fun s : APRSAdapter => ∀ packet ∈ s.immediate,
      ∃ peer, validatePeer peer = .ok peer ∧ Reply setup peer packet)
    (fun _ h => absurd h List.not_mem_nil) fun _ _ h packet hpacket =>
      (step_replies _ _ packet hpacket).elim (h packet) id

end OpenQSP
