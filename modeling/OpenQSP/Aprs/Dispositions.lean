import OpenQSP.Aprs.Answering
import OpenQSP.Aprs.Assembling

/-!
# When `receive` returns

Bad input ends in a disposition as long as one of the parsers that `receive` guards finds it. Three
things are found later, where nothing catches what they raise: a frame that only the carriage
accepts, an address that is no callsign, and a transaction id that no byte stands for.

## Main definitions

* `Answerable` — none of the three is reached
* `Served` — Core returned
* `Disposed` — a call returned, and did not call Core where it refused

## Main results

* `acknowledgeRequest_returns_iff`, `receiveControl_returns_iff`
* **`receive_disposed_iff`**
-/

namespace OpenQSP

open APRSAdapter Method

variable {setup : Setup} {peer body : Str} {key : TransactionKey} {now : ℚ}

/-! ### Acknowledging a request -/

/-- What was kept for a replay can be read back. -/
def Replay.Readable (replay : Replay) : Prop :=
  (∃ request, decodeFrame replay.request = .ok request) ∧
    ∀ data ∈ replay.responses, ∃ object, decodeFrame data = .ok object

/-- The cache keeps requests that Core was called with, and what it returned. -/
theorem Inbound.Recorded.readable {s : APRSAdapter} (h : s.inbound.Recorded setup)
    (hrequested : s.Requested) :
    ∀ e ∈ s.replay.entries, e.2.Readable := by
  intro e he
  obtain ⟨x, hx, -, hframe, houtcome⟩ := h.recorded e he
  obtain ⟨request, hrequest, -⟩ := hrequested x hx
  refine ⟨⟨request, hframe ▸ hrequest⟩, fun data hdata => ?_⟩
  obtain ⟨s₀, -, hrun, -⟩ := h.genuine x hx
  obtain ⟨objects, hobjects⟩ := handleFrame_responses (hrun.trans houtcome)
  exact (decodeFrame_of_mem_responses hobjects hdata).imp fun _ h => h.2

theorem Replay.Readable.isStoredSend {replay : Replay} (h : replay.Readable) :
    ∃ stored, replay.isStoredSend = .ok stored := by
  obtain ⟨⟨request, hrequest⟩, hresponses⟩ := h
  rw [Replay.isStoredSend, hrequest, Py.ok_bind]
  split
  · exact sendWasStored_ok hresponses
  · exact ⟨false, rfl⟩

theorem encodeControl_of_byte {byte : UInt8} (h : transactionByte key.2 = .ok byte) (kind : String)
    (payload : Bytes) : ∃ body, encodeControl kind key.2 payload = .ok body :=
  ⟨_, by rw [encodeControl, h, Py.ok_bind]; rfl⟩

theorem compactStoredResult_returns {byte : UInt8} (h : transactionByte key.2 = .ok byte)
    {s : APRSAdapter}
    (hreadable : ∀ e ∈ s.replay.entries, e.2.Readable) :
    ((compactStoredResult setup key now).run s).1 = .ok () := by
  obtain ⟨encoded, hencoded⟩ := encodeControl_of_byte h "S2" []
  show Yields _ s fun outcome _ => outcome = .ok ()
  refine Yields.bind (Q := fun outcome _ => outcome =
    .ok (s.replay.get setup.config.replay key now).1)
    rfl (fun found s₁ hfound => ?_) fun _ _ h => absurd h nofun
  have hfound := Except.ok.inj hfound
  cases found with
  | none => rfl
  | some replay =>
    have hmem := (ReplayCache.get_eq_some hfound.symm).1
    obtain ⟨stored, hstored⟩ := (hreadable _ hmem).isStoredSend
    refine Yields.ofExcept_bind (fun stored _ => ?_) fun e he => nomatch hstored.symm.trans he
    cases stored with
    | false => rfl
    | true =>
      rw [when_true rfl]
      refine Yields.modify_bind (Yields.ofExcept_bind (fun _ _ => rfl) fun e he => ?_)
      exact nomatch hencoded.symm.trans he

/-- Acknowledging a request returns exactly where a byte stands for its transaction. -/
theorem acknowledgeRequest_returns_iff {s : APRSAdapter} (hreadable : ∀ e ∈ s.replay.entries,
    e.2.Readable) :
    ((acknowledgeRequest setup key now).run s).1 = .ok () ↔ ∃ byte,
      transactionByte key.2 = .ok byte := by
  rcases hbyte : transactionByte key.2 with e | byte
  · have hack : encodeBurstAck key.2 = .error e := by
      rw [encodeBurstAck, encodeControl, hbyte]
      rfl
    rw [acknowledgeRequest, hack]
    exact ⟨nofun, fun ⟨_, h⟩ => nomatch h⟩
  · obtain ⟨ack, hack⟩ := encodeControl_of_byte hbyte "A2" []
    rw [acknowledgeRequest, encodeBurstAck, hack, run_ofExcept_ok_bind]
    refine ⟨fun _ => ⟨byte, rfl⟩, fun _ => ?_⟩
    rw [sendImmediately, run_modify_bind]
    exact compactStoredResult_returns hbyte hreadable

/-! ### Controls -/

/-- The control is about the transaction, and asks for something that it has. -/
def BurstControl.Names (tx : BurstTx) : BurstControl → Prop
  | ack transactionId => tx.transactionId = transactionId
  | missing transactionId indices => tx.transactionId = transactionId ∧ tx.validMissing indices ≠ ∅

theorem refreshAprsPresence_yields (s : APRSAdapter) :
    (refreshAprsPresence setup peer).Yields s fun outcome s' =>
      (outcome = .ok () ↔
        (setup.router = true → ∃ callsign, normalizeCallsign peer "APRS source" = .ok callsign)) ∧
      s'.core.tables = s.core.tables ∧ s'.core.clock = s.core.clock := by
  rw [refreshAprsPresence]
  split
  · next hrouter =>
    refine Yields.ofExcept_bind (fun callsign hcallsign => ?_) fun e he => ?_
    · refine ⟨⟨fun _ _ => ⟨callsign, hcallsign⟩, fun _ => setAprs_returns hcallsign s.core⟩, ?_⟩
      have hkeeps : (CoreState.setAprs callsign peer).Moves
          (Keeps fun core => (core.tables, core.clock)) := by
        refine Moves.bind (Moves.ofExcept _) fun _ => ?_
        exact Moves.bind (Moves.ofExcept _) fun _ => Moves.modify fun _ => rfl
      exact Prod.mk.inj (hkeeps s.core)
    · refine ⟨⟨nofun, fun h => ?_⟩, rfl, rfl⟩
      obtain ⟨callsign, hcallsign⟩ := h hrouter
      exact nomatch he.symm.trans hcallsign
  · next hrouter => exact ⟨⟨fun _ h => absurd h hrouter, fun _ => rfl⟩, rfl, rfl⟩

theorem CoreState.CanDeliver.congr {stores : Stores} {delivery : Delivery} {core core' : CoreState}
    (htables : core'.tables = core.tables) (hclock : core'.clock = core.clock) :
    core'.CanDeliver stores delivery ↔ core.CanDeliver stores delivery := by
  rw [CoreState.CanDeliver, CoreState.CanDeliver, htables, hclock]

/-- A transaction completes exactly where its delivery can be recorded. -/
theorem completeOutbound_returns_iff (tx : BurstTx) (s : APRSAdapter) :
    ((completeOutbound setup peer tx).run s).1 = .ok () ↔
      ∀ delivery ∈ tx.delivery, s.core.CanDeliver setup.stores delivery := by
  rw [completeOutbound, run_modify_bind]
  cases hdelivery : tx.delivery with
  | none => exact ⟨fun _ _ => nofun, fun _ => rfl⟩
  | some delivery =>
    show ((CoreState.markAprsDelivered setup.stores delivery).run s.core).1 = .ok () ↔ _
    rw [CoreState.markAprsDelivered_returns_iff]
    exact ⟨fun h delivery' hdelivery' => Option.some.inj hdelivery' ▸ h, fun h => h delivery rfl⟩

/-- What a control for the active transaction of its peer needs. -/
def ControlAnswerable (setup : Setup) (peer : Str) (control : BurstControl)
    (s : APRSAdapter) : Prop :=
  ∀ tx, s.burstActive.get? peer = some tx → control.Names tx →
    (setup.router = true → ∃ callsign, normalizeCallsign peer "APRS source" = .ok callsign) ∧
    ∀ transactionId, control = .ack transactionId →
      ∀ delivery ∈ tx.delivery, s.core.CanDeliver setup.stores delivery

theorem controlAnswerable_iff {control : BurstControl} {s : APRSAdapter} {tx : BurstTx}
    (hactive : s.burstActive.get? peer = some tx) (hnames : control.Names tx) :
    ControlAnswerable setup peer control s ↔
      (setup.router = true → ∃ callsign, normalizeCallsign peer "APRS source" = .ok callsign) ∧
      ∀ transactionId, control = .ack transactionId →
        ∀ delivery ∈ tx.delivery, s.core.CanDeliver setup.stores delivery := by
  refine ⟨fun h => h tx hactive hnames, fun h tx' htx' _ => ?_⟩
  obtain rfl := Option.some.inj (hactive.symm.trans htx')
  exact h

theorem receiveControl_returns_iff (control : BurstControl) (s : APRSAdapter) :
    (∃ d, ((receiveControl setup peer control).run s).1 = .ok d) ↔
      ControlAnswerable setup peer control s := by
  show Yields _ s fun outcome _ => (∃ d, outcome = .ok d) ↔ _
  refine Yields.get_bind ?_
  cases hactive : s.burstActive.get? peer with
  | none =>
    refine ⟨fun _ tx htx => ?_, fun _ => ⟨_, rfl⟩⟩
    rw [hactive] at htx
    cases htx
  | some tx =>
    have hother : ¬control.Names tx → ControlAnswerable setup peer control s := by
      intro hnot tx' htx' hnames
      obtain rfl := Option.some.inj (hactive.symm.trans htx')
      exact absurd hnames hnot
    cases control with
    | ack transactionId =>
      show Yields (if _ then _ else _) _ _
      split
      · next hne => exact ⟨fun _ => hother hne, fun _ => ⟨_, rfl⟩⟩
      · next heq =>
        have hnames : (BurstControl.ack transactionId).Names tx := not_not.mp heq
        rw [controlAnswerable_iff hactive hnames]
        refine Yields.bind (refreshAprsPresence_yields s) (fun _ s₁ hs₁ => ?_)
          fun e s₁ hs₁ => ⟨nofun, fun h => nomatch hs₁.1.mpr h.1⟩
        obtain ⟨hcallsign, htables, hclock⟩ := hs₁
        refine Yields.bind (Q := fun outcome _ => outcome = .ok () ↔
          ∀ delivery ∈ tx.delivery, s.core.CanDeliver setup.stores delivery) ?_ (fun _ s₂ hs₂ => ?_)
          fun e s₂ hs₂ => ⟨nofun, fun h => nomatch hs₂.mpr (h.2 _ rfl)⟩
        · refine (completeOutbound_returns_iff tx s₁).trans (forall₂_congr fun delivery _ => ?_)
          exact CoreState.CanDeliver.congr htables hclock
        · exact ⟨fun _ => ⟨hcallsign.mp rfl, fun _ _ => hs₂.mp rfl⟩, fun _ => ⟨_, rfl⟩⟩
    | missing transactionId indices =>
      show Yields (if _ then _ else _) _ _
      split
      · next hne => exact ⟨fun _ => hother fun h => hne h.1, fun _ => ⟨_, rfl⟩⟩
      split
      · next hempty => exact ⟨fun _ => hother fun h => h.2 hempty, fun _ => ⟨_, rfl⟩⟩
      · next heq hsome =>
        have hnames : (BurstControl.missing transactionId indices).Names tx :=
          ⟨not_not.mp heq, hsome⟩
        rw [controlAnswerable_iff hactive hnames]
        refine Yields.bind (refreshAprsPresence_yields s) (fun _ s₁ hs₁ => ?_)
          fun e s₁ hs₁ => ⟨nofun, fun h => nomatch hs₁.1.mpr h.1⟩
        exact Yields.modify_bind ⟨fun _ => ⟨hs₁.1.mp rfl, nofun⟩, fun _ => ⟨_, rfl⟩⟩

/-! ### Requests -/

/-- Core returned from the calls that are new in the history. -/
def Served (before after : List Execution) : Prop :=
  ∀ x ∈ after.drop before.length, ∃ responses, x.outcome = .ok responses

instance (x : Execution) : Decidable (∃ responses, x.outcome = .ok responses) :=
  match x.outcome with
  | .ok responses => .isTrue ⟨responses, rfl⟩
  | .error _ => .isFalse fun ⟨_, hok⟩ => nomatch hok

instance (before after : List Execution) : Decidable (Served before after) := List.decidableBAll _ _

/-- What becomes of a complete request: only one that is decoded, and whose peer is a callsign, is
served. -/
inductive Completion (key : TransactionKey) (frame : Bytes) (before : List Execution)
    (s' : APRSAdapter) :
    Py Disposition → Prop
  | undecoded {e : PyError} (decoded : decodeFrame frame = .error e) :
      Completion key frame before s' (.error e)
  | notRequest {request : ProtocolObject} (decoded : decodeFrame frame = .ok request)
      (isRequest : request.isRequest = false) : Completion key frame before s' (.ok .invalid)
  | stranger {request : ProtocolObject} {e : PyError} (decoded : decodeFrame frame = .ok request)
      (isRequest : request.isRequest = true) (callsign : normalizeCallsign key.1 "APRS source" =
        .error e) :
      Completion key frame before s' (.error e)
  | served {request : ProtocolObject} {callsign : Str} {outcome : Py Disposition}
      (decoded : decodeFrame frame = .ok request) (isRequest : request.isRequest = true)
      (callsign : normalizeCallsign key.1 "APRS source" = .ok callsign)
      (full : Served before s'.executions → Raises IsFull outcome)
      (returns : ∀ d, outcome = .ok d → d = .completed)
      (readable : ∀ e ∈ s'.replay.entries, e.2.Readable) : Completion key frame before s' outcome

theorem completeRequest_completion {frame : Bytes} (messageId : Option Str)
    (hpeer : validatePeer key.1 = .ok key.1) {s : APRSAdapter} (hqueue : s.queue = [])
    (hpending : s.pending = .empty) (hreadable : ∀ e ∈ s.replay.entries, e.2.Readable) :
    (completeRequest setup key messageId frame now).Yields s fun outcome s' =>
      Completion key frame s.executions s' outcome := by
  refine Yields.ofExcept_bind (fun request hdecode => ?_) fun e he => .undecoded he
  split
  · next hrequest =>
    exact Yields.bind (confirmInbound_yields _ _ _ _) (fun _ _ _ => .notRequest hdecode hrequest)
      fun _ _ h => by cases h.1
  · next hrequest =>
    have hrequest := Bool.eq_true_of_not_eq_false hrequest
    rw [confirmInbound_accepted, when_pure, pure_bind]
    refine Yields.ofExcept_bind (fun callsign hcallsign => ?_) fun e he =>
      .stranger hdecode hrequest he
    refine Yields.bind (Yields.and
      (Yields.of_outcome (reconcileRequest_returns callsign request hqueue hpending))
      (Yields.of_moves (reconcileRequest_keepsOuter callsign request).inbound)) (fun _ s₁ hs₁ => ?_)
      fun _ _ h => by cases h.1
    refine Yields.bind (Yields.and (executeFrame_yields callsign s₁)
      (executeFrame_answered callsign s₁))
      (fun responses s₂ hs₂ => ?_) fun e s₂ hs₂ => ?_
    · obtain ⟨⟨x, -, -, -, -, -, hs₂⟩, hanswered⟩ := hs₂
      have hanswered := hanswered responses rfl
      have hreplay : s₂.replay = s.replay :=
        (congrArg Inbound.replay hs₂).trans (congrArg Inbound.replay hs₁.2)
      refine Yields.mono (Yields.and (finishRequest_full hpeer hcallsign hanswered)
        (finishRequest_inbound hcallsign hanswered.decodes s₂)) fun outcome s' hs' => ?_
      refine .served hdecode hrequest hcallsign (fun _ => hs'.1) hs'.2.1 fun e he => ?_
      rw [show s'.replay = _ from congrArg Inbound.replay hs'.2.2] at he
      rcases ReplayCache.mem_of_put he with rfl | ⟨he, -⟩
      · exact ⟨⟨request, hdecode⟩, hanswered.decodes⟩
      · exact hreadable e (hreplay ▸ he)
    · obtain ⟨⟨x, -, -, -, -, houtcome, hs₂⟩, -⟩ := hs₂
      have hexecutions : s₂.executions = s.executions ++ [x] :=
        (congrArg Inbound.executions hs₂).trans
          (congrArg (fun i : Inbound => i.executions ++ [x]) hs₁.2)
      have hreplay : s₂.replay = s.replay :=
        (congrArg Inbound.replay hs₂).trans (congrArg Inbound.replay hs₁.2)
      refine .served hdecode hrequest hcallsign (fun hserved => ?_) (fun _ h => by cases h)
        (hreplay ▸ hreadable)
      obtain ⟨responses, hok⟩ := hserved x (by
        rw [hexecutions, List.drop_left]
        exact List.mem_singleton_self x)
      cases houtcome.symm.trans hok

/-- What becomes of a fragment of a transaction that is not in the replay cache. -/
theorem receiveFragment_outcome {fragment : APRSFragment} (messageId : Option Str) {s : APRSAdapter}
    (parsed : parsePacket peer body = .ok (peer, fragment))
    (hmiss : s.inbound.cached setup (peer, fragment.transactionId) now = none)
    (hsound : s.reassembly.Sound) (hqueue : s.queue = []) (hpending : s.pending = .empty)
    (hreadable : ∀ e ∈ s.replay.entries, e.2.Readable) {result : Py (Option Bytes)}
      {reassembly : Reassembler}
    (hadd : s.reassembly.add setup.config.reassembly peer fragment now = (result, reassembly)) :
    (receiveFragment setup peer messageId fragment now).Yields s fun outcome s' =>
      match result with
      | .error _ => outcome = .ok .conflict ∨ outcome = .ok .invalid
      | .ok none => outcome = .ok .fragment
      | .ok (some frame) => Completion (peer, fragment.transactionId) frame s.executions s'
          outcome := by
  obtain ⟨-, hpeer, hfragment⟩ := parsePacket_eq_ok parsed
  obtain ⟨-, hraises, -⟩ := Reassembler.add_sound hsound hfragment setup.config.reassembly peer now
  rw [hadd] at hraises
  refine Yields.bind (Q := fun outcome s' => outcome = .ok result ∧
    s' = { s with reassembly }) ?_ ?_ fun _ _ h => by cases h.1
  · show _ ∧ _
    simp only [onReassembly, hadd, and_self]
  rintro added _ ⟨hadded, rfl⟩
  obtain rfl := Except.ok.inj hadded
  rcases added with e | _ | frame
  · dsimp only
    rw [if_pos (hraises e rfl)]
    refine Yields.bind (confirmInbound_yields _ _ _ _) (fun _ s' _ => ?_) fun _ _ h => by
      cases h.1
    split
    · exact .inl rfl
    · exact .inr rfl
  · exact Yields.bind (confirmInbound_yields _ _ _ _) (fun _ _ _ => rfl) fun _ _ h => by
      cases h.1
  · refine Yields.bind (Q := fun outcome s' => outcome = .ok none ∧ s' = { s with
      reassembly
      replay := (s.replay.get setup.config.replay (peer, fragment.transactionId) now).2 }) ?_ ?_
      fun _ _ h => by cases h.1
    · exact ⟨congrArg Except.ok hmiss, rfl⟩
    · rintro _ _ ⟨hnone, rfl⟩
      obtain rfl := Except.ok.inj hnone
      exact completeRequest_completion messageId hpeer hqueue hpending
        fun e he => hreadable e (ReplayCache.mem_of_get he)

/-- A complete request is served and acknowledged: it must be decoded, its peer must be a callsign,
and a byte must stand for its transaction. What is no request needs to be decoded only. -/
def RequestAnswerable (key : TransactionKey) (frame : Bytes) : Prop :=
  ∃ request, decodeFrame frame = .ok request ∧ (request.isRequest = true →
    (∃ callsign, normalizeCallsign key.1 "APRS source" = .ok callsign) ∧
    ∃ byte, transactionByte key.2 = .ok byte)

theorem requestAnswerable_iff {frame : Bytes} {request : ProtocolObject}
    (h : decodeFrame frame = .ok request) :
    RequestAnswerable key frame ↔ (request.isRequest = true →
      (∃ callsign, normalizeCallsign key.1 "APRS source" = .ok callsign) ∧
      ∃ byte, transactionByte key.2 = .ok byte) := by
  refine ⟨fun ⟨request', hdecode, hanswer⟩ => ?_, fun hanswer => ⟨request, h, hanswer⟩⟩
  obtain rfl := Except.ok.inj (h.symm.trans hdecode)
  exact hanswer

/-- What the burst layer does after the commit layer. -/
def afterCommit (setup : Setup) (key : TransactionKey) (now : ℚ) (disposition : Disposition) :
    Adapter Disposition := do
  Method.when (disposition = .completed ∨ disposition = .replayed)
    (acknowledgeRequest setup key now)
  Method.when (disposition = .completed ∨ disposition = .replayed ∨ disposition = .invalid ∨
      disposition = .conflict)
    (modify fun s => { s with rxProgress := s.rxProgress.erase key })
  return disposition

/-- Only a request that was completed or replayed is acknowledged. -/
theorem afterCommit_returns {d : Disposition} (h : d ≠ .completed ∧ d ≠ .replayed)
    (s : APRSAdapter) :
    ((afterCommit setup key now d).run s).1 = .ok d := by
  rw [afterCommit, when_false (by simp [h]), pure_bind, when]
  split <;> rfl

theorem afterCommit_completed {s : APRSAdapter} (hreadable : ∀ e ∈ s.replay.entries, e.2.Readable) :
    (∃ d, ((afterCommit setup key now .completed).run s).1 = .ok d) ↔
      ∃ byte, transactionByte key.2 = .ok byte := by
  rw [afterCommit, when_true (.inl rfl), when_true (.inl rfl)]
  show Yields _ s fun outcome _ => (∃ d, outcome = .ok d) ↔ _
  refine Yields.bind (Q := fun outcome _ => outcome = .ok () ↔ ∃ byte,
    transactionByte key.2 = .ok byte)
    (acknowledgeRequest_returns_iff hreadable) (fun _ s' hs' => ?_)
    fun e s' hs' => ⟨nofun, fun h => nomatch hs'.mpr h⟩
  exact ⟨fun _ => hs'.mp rfl, fun _ => ⟨_, rfl⟩⟩

theorem afterCommit_completion {frame : Bytes} {before : List Execution} {s : APRSAdapter}
    {d : Disposition}
    (h : Completion key frame before s (.ok d)) :
    (∃ d', ((afterCommit setup key now d).run s).1 = .ok d') ↔ RequestAnswerable key frame := by
  cases h with
  | notRequest decoded isRequest =>
    rw [requestAnswerable_iff decoded, isRequest]
    exact ⟨fun _ => nofun, fun _ => ⟨.invalid, afterCommit_returns (by decide) s⟩⟩
  | served decoded isRequest callsign full returns readable =>
    obtain rfl := returns d rfl
    rw [requestAnswerable_iff decoded, afterCommit_completed readable]
    exact ⟨fun h _ => ⟨⟨_, callsign⟩, h⟩, fun h => (h isRequest).2⟩

theorem Completion.error {frame : Bytes} {before : List Execution} {s : APRSAdapter} {e : PyError}
    (h : Completion key frame before s (.error e)) (hserved : Served before s.executions)
    (hroom : ¬IsFull e) : ¬RequestAnswerable key frame := by
  rintro ⟨request', hdecode, hanswer⟩
  cases h with
  | undecoded decoded => exact nomatch decoded.symm.trans hdecode
  | stranger decoded isRequest callsign =>
    obtain rfl := Except.ok.inj (decoded.symm.trans hdecode)
    obtain ⟨⟨_, hcallsign⟩, -⟩ := hanswer isRequest
    exact nomatch callsign.symm.trans hcallsign
  | served _ _ _ full => exact hroom (full hserved e rfl)

theorem receiveBurstFragment_returns_iff {fragment : APRSFragment} {i : Inbound} {s : APRSAdapter}
    (parsed : parsePacket peer body = .ok (peer, fragment))
    (miss : i.cached setup (peer, fragment.transactionId) now = none)
    (hs : s.inbound = i.lookUp setup (peer, fragment.transactionId) now)
      (hsound : i.reassembly.Sound)
    (hqueue : s.queue = []) (hpending : s.pending = .empty)
    (hreadable : ∀ e ∈ i.replay.entries, e.2.Readable) :
    (receiveBurstFragment setup peer body fragment now).Yields s fun outcome s' =>
      Served s.executions s'.executions → (∀ e, outcome = .error e → ¬IsFull e) →
        ((∃ d, outcome = .ok d) ↔ ∀ frame reassembly,
          i.reassembly.add setup.config.reassembly peer fragment now =
            (.ok (some frame), reassembly) →
            RequestAnswerable (peer, fragment.transactionId) frame) := by
  refine Yields.modify_bind ?_
  generalize hs₁ : ({ s with
    rxProgress := s.rxProgress.set (peer, fragment.transactionId)
      (.note setup fragment now (s.rxProgress.get? (peer, fragment.transactionId))) } :
    APRSAdapter) = s₁
  have hmiss : s₁.inbound.cached setup (peer, fragment.transactionId) now = none := by
    refine Eq.trans ?_ ((Inbound.cached_lookUp i).trans miss)
    rw [← hs, ← hs₁]
    rfl
  have hreassembly : s₁.reassembly = i.reassembly := by
    rw [← hs₁]
    exact congrArg Inbound.reassembly hs
  have hreadable' : ∀ e ∈ s₁.replay.entries, e.2.Readable := by
    intro e he
    rw [← hs₁] at he
    have hreplay : s.replay = _ := congrArg Inbound.replay hs
    rw [hreplay] at he
    exact hreadable e (ReplayCache.mem_of_get he)
  have hexecutions : s₁.executions = s.executions := by rw [← hs₁]
  rw [receiveCommit_of_parsed parsed]
  rcases hadd : i.reassembly.add setup.config.reassembly peer fragment now with ⟨result, reassembly⟩
  refine Yields.bind (receiveFragment_outcome (trailingMessageId body) parsed hmiss
    (hreassembly ▸ hsound)
    (by rw [← hs₁]; exact hqueue) (by rw [← hs₁]; exact hpending) hreadable' (hreassembly ▸ hadd))
    (fun d s₂ hs₂ => ?_) fun e s₂ hs₂ => ?_
  · show (afterCommit setup (peer, fragment.transactionId) now d).Yields s₂ _
    intro _ _
    have hreturns : d ≠ .completed ∧ d ≠ .replayed →
        ∃ d', ((afterCommit setup (peer, fragment.transactionId) now d).run s₂).1 = .ok d' :=
      fun hd => ⟨d, afterCommit_returns hd s₂⟩
    match result with
    | .error e =>
      refine ⟨fun _ frame reassembly h => (nomatch h), fun _ => hreturns ?_⟩
      rcases hs₂ with hs₂ | hs₂ <;> obtain rfl := Except.ok.inj hs₂ <;> decide
    | .ok none =>
      refine ⟨fun _ frame reassembly h => (nomatch h), fun _ => hreturns ?_⟩
      obtain rfl := Except.ok.inj hs₂
      decide
    | .ok (some frame) =>
      rw [afterCommit_completion hs₂]
      refine ⟨fun h frame' reassembly' heq => ?_, fun h => h frame reassembly rfl⟩
      obtain rfl := Option.some.inj (Except.ok.inj (congrArg Prod.fst heq))
      exact h
  · intro hserved hroom
    match result with
    | .error e' => exact (hs₂.elim nofun nofun)
    | .ok none => cases hs₂
    | .ok (some frame) =>
      refine ⟨nofun, fun h => absurd (h frame reassembly rfl) (hs₂.error ?_ (hroom e rfl))⟩
      rw [hexecutions]
      exact hserved

/-! ### The result -/

/-- What `receive` can answer. A control must be for a peer that is a callsign, and about a delivery
that can be recorded; a replayed request must have a transaction that a byte stands for; and a
request that the packet completes must be one that can be answered. -/
structure Answerable (setup : Setup) (peer body : Str) (now : ℚ) (s : APRSAdapter) : Prop where
  control : validatePeer peer = .ok peer → ∀ control, parseBurstControl body = some control →
    ControlAnswerable setup peer control s
  replayed : ∀ fragment, parsePacket peer body = .ok (peer, fragment) →
    (s.inbound.cached setup (peer, fragment.transactionId) now).isSome →
    ∃ byte, transactionByte fragment.transactionId = .ok byte
  complete : ∀ fragment frame reassembly, parsePacket peer body = .ok (peer, fragment) →
    s.inbound.cached setup (peer, fragment.transactionId) now = none →
    s.reassembly.add setup.config.reassembly peer fragment now = (.ok (some frame), reassembly) →
    RequestAnswerable (peer, fragment.transactionId) frame

/-- The dispositions of what is refused. -/
def Disposition.isRefusal : Disposition → Bool
  | ignored | invalid | conflict => true
  | _ => false

/-- The call returned, and where it refused it has not called Core. -/
def Disposed (outcome : Py Disposition) (before after : List Execution) : Prop :=
  ∃ d, outcome = .ok d ∧ (d.isRefusal = true → after = before)

theorem Handled.refused_executions {frame : Bytes} {i i' : Inbound} {d : Disposition}
    (h : Handled setup key frame now i (.ok d) i') (hd : d.isRefusal = true) : i'.executions =
      i.executions := by
  cases h with
  | notRequest => rfl
  | completed _ _ _ _ returns =>
    obtain rfl := returns d rfl
    cases hd

/-- Core is not called for what is refused. -/
theorem Received.refused_executions {i i' : Inbound} {d : Disposition}
    (h : Received setup peer body now i (.ok d) i') (hd : d.isRefusal = true) : i'.executions =
      i.executions := by
  cases h with
  | noFragment => rfl
  | replayed => rfl
  | collected => rfl
  | rejected => rfl
  | complete _ _ _ effect again =>
    rcases again with rfl | rfl
    · exact effect.refused_executions hd
    · exact effect.refused_executions hd

theorem receiveReplayed_returns_iff {s : APRSAdapter} (hreadable : ∀ e ∈ s.replay.entries,
    e.2.Readable) :
    (∃ d, ((receiveReplayed setup key now).run s).1 = .ok d) ↔ ∃ byte,
      transactionByte key.2 = .ok byte := by
  show Yields _ s fun outcome _ => (∃ d, outcome = .ok d) ↔ _
  refine Yields.modify_bind (Yields.bind (Q := fun outcome _ => outcome = .ok () ↔
    ∃ byte, transactionByte key.2 = .ok byte) (acknowledgeRequest_returns_iff hreadable)
    (fun _ s' hs' => ?_) fun e s' hs' => ⟨nofun, fun h => nomatch hs'.mpr h⟩)
  exact ⟨fun _ => hs'.mp rfl, fun _ => ⟨_, rfl⟩⟩

theorem receive_parsed_returns_iff {fragment : APRSFragment} {s : APRSAdapter}
    (parsed : parsePacket peer body = .ok (peer, fragment)) (hsound : s.reassembly.Sound)
    (hqueue : s.queue = []) (hpending : s.pending = .empty)
    (hreadable : ∀ e ∈ s.replay.entries, e.2.Readable) :
    (receive setup peer body now).Yields s fun outcome s' =>
      Served s.executions s'.executions → (∀ e, outcome = .error e → ¬IsFull e) →
        ((∃ d, outcome = .ok d) ↔ Answerable setup peer body now s) := by
  have hcontrol := parseBurstControl_of_fragment (parsePacket_eq_ok parsed).2.2
  have hsame : ∀ {fragment'}, parsePacket peer body = .ok (peer, fragment') →
    fragment' = fragment := fun h =>
    (Prod.mk.inj (Except.ok.inj (h.symm.trans parsed))).2
  have hget : ∀ e ∈ (s.replay.get setup.config.replay (peer, fragment.transactionId) now).2.entries,
      e.2.Readable := fun e he => hreadable e (ReplayCache.mem_of_get he)
  rw [receive]
  simp only [parsed]
  refine Yields.bind (Q := fun outcome s₁ =>
    outcome = .ok (s.inbound.cached setup (peer, fragment.transactionId) now) ∧ s₁ = { s with
      replay := (s.replay.get setup.config.replay (peer, fragment.transactionId) now).2 })
    ⟨rfl, rfl⟩ ?_ fun _ _ h => by cases h.1
  rintro found _ ⟨hfound, rfl⟩
  have hfound := Except.ok.inj hfound
  cases found with
  | none =>
    dsimp only
    rw [receiveBurst_of_parsed parsed]
    refine Yields.mono (receiveBurstFragment_returns_iff (i := s.inbound) parsed hfound.symm
      rfl hsound
      hqueue hpending hreadable) fun outcome s' h hserved hroom => (h hserved hroom).trans ?_
    constructor
    · refine fun h => ⟨fun _ control hparse => ?_, fun fragment' hparse hhit => ?_,
        fun fragment' frame reassembly hparse _ hadd => ?_⟩
      · cases hcontrol.symm.trans hparse
      · obtain rfl := hsame hparse
        rw [← hfound] at hhit
        cases hhit
      · obtain rfl := hsame hparse
        exact h frame reassembly hadd
    · exact fun h frame reassembly hadd => h.complete fragment frame reassembly parsed
        hfound.symm hadd
  | some replay =>
    dsimp only
    intro _ _
    rw [receiveReplayed_returns_iff hget]
    constructor
    · refine fun h => ⟨fun _ control hparse => ?_, fun fragment' hparse _ => ?_,
        fun fragment' frame reassembly hparse hmiss _ => ?_⟩
      · cases hcontrol.symm.trans hparse
      · obtain rfl := hsame hparse
        exact h
      · obtain rfl := hsame hparse
        rw [← hfound] at hmiss
        cases hmiss
    · exact fun h => h.replayed fragment parsed (by rw [← hfound]; rfl)

theorem isUnparsable_of_carriage {e : PyError} (h : e.isA .carriageError) : isUnparsable e =
    true := by
  rw [isUnparsable, h, Bool.true_or]

/-- The commit layer ignores what is no fragment: nothing of the base class waits for an
acknowledgement. -/
theorem receiveCommit_ignored {e : PyError} (hpeer : validatePeer peer = .ok peer)
    (hfragment : parseFragment body = .error e) {s : APRSAdapter} (hpending : s.pending = .empty) :
    ((receiveCommit setup peer body now).run s).1 = .ok .ignored := by
  rw [receiveCommit, hpeer]
  dsimp only
  split
  · rw [receiveLegacyAck, run_get_bind, hpending]
    rfl
  · rw [confirmInbound_accepted, when_pure, pure_bind, hfragment]
    dsimp only
    rw [if_pos (isUnparsable_of_carriage (parseFragment_raises body e hfragment))]
    show (_ : Adapter Disposition).Yields s fun outcome _ => outcome = .ok .ignored
    exact Yields.bind (confirmInbound_yields _ _ _ _) (fun _ _ _ => rfl) fun _ _ h =>
      by cases h.1

theorem receive_unparsed_returns_iff (h : ∀ result, parsePacket peer body ≠ .ok result)
    {s : APRSAdapter}
    (hpending : s.pending = .empty) :
    (∃ d, ((receive setup peer body now).run s).1 = .ok d) ↔ Answerable setup peer body now s := by
  have hanswerable : (validatePeer peer = .ok peer → ∀ control,
    parseBurstControl body = some control →
      ControlAnswerable setup peer control s) → Answerable setup peer body now s := fun hcontrol =>
    ⟨hcontrol, fun fragment parsed => absurd parsed (h _), fun fragment _ _ parsed =>
      absurd parsed (h _)⟩
  rcases hparse : parsePacket peer body with e | result
  · rw [receive, hparse]
    dsimp only
    rw [if_pos (isUnparsable_of_carriage (parsePacket_raises peer body e hparse)), receiveBurst]
    rcases hpeer : validatePeer peer with e' | peer'
    · dsimp only
      rw [if_pos (validatePeer_raises peer e' hpeer)]
      refine ⟨fun _ => hanswerable fun hok => ?_, fun _ => ⟨_, rfl⟩⟩
      cases hpeer.symm.trans hok
    · obtain rfl := validatePeer_eq_ok hpeer
      dsimp only
      cases hcontrol : parseBurstControl body with
      | some control =>
        dsimp only
        rw [receiveControl_returns_iff]
        refine ⟨fun hanswer => hanswerable fun _ control' hcontrol' => ?_,
          fun hanswer => hanswer.control hpeer control hcontrol⟩
        obtain rfl := Option.some.inj (hcontrol.symm.trans hcontrol')
        exact hanswer
      | none =>
        have hignored : Answerable setup peer' body now s := by
          refine hanswerable fun _ control hcontrol' => ?_
          cases hcontrol.symm.trans hcontrol'
        rcases hfragment : parseFragment body with e' | fragment
        · dsimp only
          rw [if_pos (isUnparsable_of_carriage (parseFragment_raises body e' hfragment))]
          exact ⟨fun _ => hignored, fun _ => ⟨_, receiveCommit_ignored hpeer hfragment hpending⟩⟩
        · rw [parsePacket, hpeer, Py.ok_bind, hfragment] at hparse
          cases hparse
  · exact absurd hparse (h result)

/-- As long as Core returns and the outbound queue has room, `receive` returns a disposition exactly
where the packet can be answered, in every state that a run of calls leaves; and it never calls Core
for what it refuses. -/
theorem receive_disposed_iff (setup : Setup) (core : CoreState) (calls : List Call)
    (peer body : Str) (now : ℚ)
    (hserved : Served (runState setup core calls calls.length).executions
      ((receive setup peer body now).run (runState setup core calls calls.length)).2.executions)
    (hroom : ∀ e, ((receive setup peer body now).run (runState setup core calls calls.length)).1 =
      .error e →
      ¬IsFull e) :
    Disposed ((receive setup peer body now).run (runState setup core calls calls.length)).1
        (runState setup core calls calls.length).executions
        ((receive setup peer body now).run (runState setup core calls calls.length)).2.executions ↔
      Answerable setup peer body now (runState setup core calls calls.length) := by
  have hrecorded : (runState setup core calls calls.length).inbound.Recorded setup :=
    runState_recorded core calls calls.length le_rfl
  have hbase := (runState_sound setup core calls calls.length le_rfl).base
  have hreadable := hrecorded.readable (runState_requested setup core calls calls.length le_rfl)
  have hsound := runState_assembling setup core calls calls.length le_rfl
  generalize runState setup core calls calls.length = s at *
  have hreturns : (∃ d, ((receive setup peer body now).run s).1 = .ok d) ↔
      Answerable setup peer body now s := by
    by_cases hparse : ∃ result, parsePacket peer body = .ok result
    · obtain ⟨⟨peer', fragment⟩, parsed⟩ := hparse
      obtain rfl := (parsePacket_eq_ok parsed).1
      exact receive_parsed_returns_iff parsed hsound hbase.1 hbase.2 hreadable hserved hroom
    · rw [not_exists] at hparse
      exact receive_unparsed_returns_iff hparse hbase.2
  rw [← hreturns]
  refine ⟨fun ⟨d, hd, _⟩ => ⟨d, hd⟩, fun ⟨d, hd⟩ => ⟨d, hd, fun hrefusal => ?_⟩⟩
  have hreceived : Received setup peer body now s.inbound _ _ := receive_received s
  rw [hd] at hreceived
  exact hreceived.refused_executions hrefusal

section Fresh

/-- What a new adapter does with one packet. -/
def firstReceive (peer body : String) : Py Disposition × APRSAdapter :=
  let setup : Setup := .standard true ⟨true, true⟩
  (receive setup (str peer) (str body) 0).run (runState setup ⟨.fresh, 1700000000, .empty⟩ [] 0)

theorem not_disposed_of_error {outcome : Py Disposition} {before after : List Execution}
    {e : PyError}
    (h : outcome = .error e) (hroom : ¬IsFull e) :
    (∀ e, outcome = .error e → ¬IsFull e) ∧ ¬Disposed outcome before after := by
  refine ⟨fun e' he => ?_, fun ⟨_, hok, _⟩ => nomatch h.symm.trans hok⟩
  obtain rfl := Except.error.inj (h.symm.trans he)
  exact hroom

/-- A new adapter has room for the answer to its first packet, and yet no disposition for it. -/
def FirstUndisposed (peer body : String) : Prop :=
  Served [] (firstReceive peer body).2.executions ∧
  (∀ e, (firstReceive peer body).1 = .error e → ¬IsFull e) ∧
  ¬Disposed (firstReceive peer body).1 [] (firstReceive peer body).2.executions

/-- Three packets that a new adapter has no disposition for: a request under a transaction id of the
old profile that no byte stands for, which Core has executed; one from an address without a digit;
and a frame with the flag of a proactive message. -/
theorem receive_notDisposed :
    FirstUndisposed "EA1ABC" "Q1:ZZZ:00/01:AQUAAA" ∧ FirstUndisposed "ABC" "Q1:001:00/01:AQUAAA" ∧
      FirstUndisposed "EA1ABC"
        "Q1:001:00/01:AUABHAAAAAEAAAABAAAAAQZFQTFBQkMGRUEyREVGAXg" := by
  refine ⟨?_, ?_, ?_⟩
  · have h : (firstReceive "EA1ABC" "Q1:ZZZ:00/01:AQUAAA").1 =
        .error (.carriage "Q2 transaction ID must fit in one byte") := by decide +kernel
    exact ⟨by decide +kernel, not_disposed_of_error h (by decide)⟩
  · have h : (firstReceive "ABC" "Q1:001:00/01:AQUAAA").1 = .error (.invalidField
        "APRS source must contain at least one letter and one number") := by decide +kernel
    exact ⟨by decide +kernel, not_disposed_of_error h (by decide)⟩
  · have h : (firstReceive "EA1ABC" "Q1:001:00/01:AUABHAAAAAEAAAABAAAAAQZFQTFBQkMGRUEyREVGAXg").1 =
        .error (.invalidField "unsupported version 0.1 flags: 0x01") := by decide +kernel
    exact ⟨by decide +kernel, not_disposed_of_error h (by decide)⟩

/-- A request for the capabilities under an id of the new profile is answered. -/
theorem receive_disposed_iff_capabilities :
    Answerable { router := true, stores := ⟨true, true⟩ } (str "EA1ABC-7") (str "Q2&!=Y!!!") 0
      (runState { router := true, stores := ⟨true, true⟩ } ⟨.fresh, 1700000000, .empty⟩ [] 0) := by
  have h : (firstReceive "EA1ABC-7" "Q2&!=Y!!!").1 = .ok .completed := by decide +kernel
  have hserved : Served [] (firstReceive "EA1ABC-7" "Q2&!=Y!!!").2.executions := by decide +kernel
  exact (receive_disposed_iff _ _ [] _ _ _ hserved fun e he => nomatch h.symm.trans he).mp
    ⟨.completed, h, nofun⟩

end Fresh

end OpenQSP
