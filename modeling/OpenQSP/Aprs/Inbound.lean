import OpenQSP.Aprs.Run

/-!
# The inbound half of the adapter

Reassembly, replay cache, progress table and the history of executed requests. Only `receive`
and `poll` write them, and what `receive` can do to them is one of the seven cases of `Received`,
whichever layer did it and wherever a method raised.

## Main definitions

* `Inbound`, `APRSAdapter.inbound`
* `Handled` — what a complete request does
* `Received` — what `receive` does

## Main results

* `queueFrame_keepsInbound`, `executeFrame_yields`
* `receive_received` — every call of `receive` is one of the cases
* `step_keepsInbound` — the calls that leave the inbound half alone
-/

namespace OpenQSP

open APRSAdapter Method

/-! ### Controls are not fragments -/

theorem parseBurstControl_take {body : Str} {control : BurstControl}
    (h : parseBurstControl body = some control) :
    body.take 2 = str "A2" ∨ body.take 2 = str "N2" ∨ body.take 4 = str "Q1A:" ∨
      body.take 4 = str "Q1N:" := by
  rw [parseBurstControl] at h
  split at h
  · next ha => exact .inl ha
  · split at h
    · next hn => exact .inr (.inl hn)
    · split at h
      · next hack =>
        unfold matchLegacyAck at hack
        dsimp only at hack
        split at hack
        · next hm => exact .inr (.inr (.inl hm.1))
        · cases hack
      · unfold matchLegacyNack at h
        dsimp only at h
        split at h
        · next hm => exact .inr (.inr (.inr hm.1))
        · cases h

/-- A body is a fragment or a control, never both. -/
theorem parseBurstControl_of_fragment {body : Str} {fragment : APRSFragment}
    (h : parseFragment body = .ok fragment) : parseBurstControl body = none := by
  cases hc : parseBurstControl body with
  | none => rfl
  | some control =>
    exfalso
    have hshort : ∀ {n : ℕ} {s : Str}, body.take 4 = s → body.take (min n 4) = s.take n := by
      rintro n s rfl
      rw [List.take_take]
    rcases parseFragment_take h with hf | hf
    · rcases parseBurstControl_take hc with hc | hc | hc | hc
      · exact absurd (hf.symm.trans hc) (by decide)
      · exact absurd (hf.symm.trans hc) (by decide)
      · exact absurd (hf.symm.trans (hshort (n := 2) hc)) (by decide)
      · exact absurd (hf.symm.trans (hshort (n := 2) hc)) (by decide)
    · have hf2 : body.take 2 = (str "Q1:").take 2 := by rw [← hf, List.take_take]; rfl
      rcases parseBurstControl_take hc with hc | hc | hc | hc
      · exact absurd (hf2.symm.trans hc) (by decide)
      · exact absurd (hf2.symm.trans hc) (by decide)
      · exact absurd (hf.symm.trans (hshort (n := 3) hc)) (by decide)
      · exact absurd (hf.symm.trans (hshort (n := 3) hc)) (by decide)

/-! ### What leaves the inbound half alone -/

structure Inbound where
  reassembly : Reassembler
  replay : ReplayCache
  rxProgress : OrderedDict TransactionKey RxProgress
  executions : List Execution

def APRSAdapter.inbound (s : APRSAdapter) : Inbound :=
  ⟨s.reassembly, s.replay, s.rxProgress, s.executions⟩

/-- The inbound half, and the packets that wait for the next `poll`. -/
def APRSAdapter.outer (s : APRSAdapter) : Inbound × List OutboundPacket := (s.inbound, s.immediate)

/-- The method does not change the inbound half. -/
abbrev KeepsInbound {α : Type} (m : Adapter α) : Prop := m.Moves (Keeps APRSAdapter.inbound)

/-- The method changes neither the inbound half nor the waiting packets. -/
abbrev KeepsOuter {α : Type} (m : Adapter α) : Prop := m.Moves (Keeps APRSAdapter.outer)

theorem KeepsOuter.inbound {α : Type} {m : Adapter α} (h : KeepsOuter m) : KeepsInbound m :=
  h.mono fun _ _ h => congrArg Prod.fst h

theorem KeepsOuter.immediate {α : Type} {m : Adapter α} (h : KeepsOuter m) :
    m.Moves (Keeps APRSAdapter.immediate) := h.mono fun _ _ h => congrArg Prod.snd h

section Keeps

variable {setup : Setup} {peer : Str} {key : TransactionKey}

theorem onCore_keepsOuter {α : Type} (m : Method PyError CoreState α) :
    KeepsOuter (onCore m) := fun _ => rfl

theorem markDelivery_keepsOuter (mark : Delivery → Method PyError CoreState Unit)
    (delivery : Option Delivery) : KeepsOuter (markDelivery mark delivery) := by
  cases delivery with
  | none => exact Moves.pure _
  | some delivery => exact onCore_keepsOuter _

theorem reportDelivery_keepsOuter (order : Option ℕ) (delivered : Bool)
    (delivery : Option Delivery) :
    KeepsOuter (reportDelivery setup order delivered delivery) := by
  cases delivery with
  | none => exact Moves.pure _
  | some delivery => exact Moves.bind (Moves.modify fun _ => rfl) fun _ => onCore_keepsOuter _

theorem sendImmediately_keepsInbound (packet : OutboundPacket) :
    KeepsInbound (sendImmediately packet) := Moves.modify fun _ => rfl

theorem confirmInbound_keepsInbound (messageId : Option Str) (accepted : Bool) :
    KeepsInbound (confirmInbound setup peer messageId accepted) := by
  refine Moves.ite (Moves.pure _) ?_
  cases messageId with
  | none => exact Moves.pure _
  | some messageId => exact sendImmediately_keepsInbound _

theorem supersedeForProactive_outer (s : APRSAdapter) :
    (supersedeForProactive peer s).outer = s.outer := by
  rw [supersedeForProactive]
  split
  · rfl
  · split <;> rfl

theorem allocate_keepsOuter : KeepsOuter (allocate peer) := by
  refine Moves.get_bind fun s => Moves.bind (Moves.modify fun _ => rfl) fun _ => ?_
  split
  · exact Moves.pure _
  · exact Moves.raise _

theorem queueFrame_keepsOuter (frame : Bytes) (options : QueueOptions) :
    KeepsOuter (queueFrame setup peer frame options) := by
  refine Moves.bind (Moves.ofExcept _) fun _ => ?_
  refine Moves.bind (Moves.when (Moves.modify supersedeForProactive_outer)) fun _ => ?_
  refine Moves.bind allocate_keepsOuter fun _ => ?_
  refine Moves.bind (Moves.ofExcept _) fun fragments => ?_
  refine Moves.get_bind fun s => ?_
  refine Moves.bind (Moves.ofExcept _) fun _ => ?_
  refine Moves.bind (Moves.ofExcept _) fun _ => ?_
  exact Moves.bind (Moves.modify fun _ => rfl) fun _ => Moves.pure _

theorem deliverMessage_keepsOuter (message : Message) (endpoint : Str) :
    KeepsOuter (deliverMessage setup message endpoint) := by
  refine Moves.bind (Moves.ofExcept _) fun _ => ?_
  exact Moves.bind (queueFrame_keepsOuter _ _) fun _ => onCore_keepsOuter _

theorem routeMessage_keepsOuter (message : Message) :
    KeepsOuter (routeMessage setup message) := by
  refine Moves.ite (Moves.catchError ?_ fun _ => Moves.pure _) (Moves.pure _)
  refine Moves.get_bind fun s => ?_
  refine Moves.bind (Moves.ofExcept _) fun endpoint => ?_
  cases endpoint with
  | none => exact Moves.pure _
  | some endpoint => exact deliverMessage_keepsOuter _ _

theorem dispatchRouted_keepsOuter (callsign : Str) (request : ProtocolObject) :
    KeepsOuter (dispatchRouted setup callsign request) := by
  refine Moves.get_bind fun s => ?_
  refine Moves.bind (onCore_keepsOuter _) fun result => ?_
  exact Moves.bind (Moves.forM fun _ _ => routeMessage_keepsOuter _) fun _ => Moves.pure _

theorem handleFrame_moves {σ : Type} {R : σ → σ → Prop} [IsPreorder σ R]
    {dispatch : Str → ProtocolObject → Method PyError σ (List ProtocolObject)}
    (h : ∀ callsign request, (dispatch callsign request).Moves R) (callsign : Str) (frame : Bytes) :
    (handleFrame dispatch callsign frame).Moves R := by
  rw [handleFrame]
  split
  · refine Moves.ite ?_ (Moves.raise _)
    split
    · exact Moves.pure _
    · exact Moves.bind (Moves.ofExcept _) fun _ => Moves.pure _
  · exact Moves.bind (h _ _) fun _ => Moves.ofExcept _

theorem activateAprs_keepsOuter (responses : List Bytes) :
    KeepsOuter (activateAprs setup peer responses) := by
  refine Moves.ite (Moves.pure _) (Moves.bind (Moves.ofExcept _) fun _ => ?_)
  refine Moves.ite (Moves.pure _) (Moves.bind (Moves.ofExcept _) fun _ => ?_)
  exact onCore_keepsOuter _

theorem reconcileRequest_keepsOuter (callsign : Str) (request : ProtocolObject) :
    KeepsOuter (reconcileRequest setup peer callsign request) := by
  unfold reconcileRequest
  split
  · refine Moves.get_bind fun s => ?_
    refine Moves.bind (Moves.modify fun _ => rfl) fun _ => ?_
    exact Moves.forM fun _ _ => reportDelivery_keepsOuter _ _ _
  · exact Moves.pure _

theorem queueResponses_keepsOuter (supersedable : Bool) (responses : List Bytes) :
    KeepsOuter (queueResponses setup key supersedable responses) := by
  refine Moves.forM fun response _ => Moves.bind (Moves.ofExcept _) fun delivery => ?_
  exact Moves.bind (queueFrame_keepsOuter _ _) fun _ => markDelivery_keepsOuter _ _

theorem refreshAprsPresence_keepsOuter : KeepsOuter (refreshAprsPresence setup peer) :=
  Moves.ite (Moves.bind (Moves.ofExcept _) fun _ => onCore_keepsOuter _) (Moves.pure _)

theorem completeOutbound_keepsOuter (tx : BurstTx) :
    KeepsOuter (completeOutbound setup peer tx) :=
  Moves.bind (Moves.modify fun _ => rfl) fun _ => reportDelivery_keepsOuter _ _ _

theorem failOutbound_keepsOuter (tx : BurstTx) : KeepsOuter (failOutbound setup peer tx) :=
  Moves.bind (Moves.modify fun _ => rfl) fun _ =>
    Moves.bind (reportDelivery_keepsOuter _ _ _) fun _ => Moves.modify fun _ => rfl

theorem receiveControl_keepsOuter (control : BurstControl) :
    KeepsOuter (receiveControl setup peer control) := by
  refine Moves.get_bind fun s => ?_
  split
  · exact Moves.pure _
  · split
    · refine Moves.ite (Moves.pure _) ?_
      refine Moves.bind refreshAprsPresence_keepsOuter fun _ => ?_
      exact Moves.bind (completeOutbound_keepsOuter _) fun _ => Moves.pure _
    · refine Moves.ite (Moves.pure _) (Moves.ite (Moves.pure _) ?_)
      refine Moves.bind refreshAprsPresence_keepsOuter fun _ => ?_
      exact Moves.bind (Moves.modify fun _ => rfl) fun _ => Moves.pure _

theorem receiveLegacyAck_keepsOuter (messageId : Str) :
    KeepsOuter (receiveLegacyAck setup peer messageId) := by
  refine Moves.get_bind fun s => ?_
  split
  · exact Moves.pure _
  · refine Moves.bind (Moves.modify fun _ => rfl) fun _ => Moves.get_bind fun s' => ?_
    exact Moves.bind (Moves.when (reportDelivery_keepsOuter _ _ _)) fun _ => Moves.pure _

theorem connectionLost_keepsInbound : KeepsInbound (connectionLost setup) := by
  refine Moves.get_bind fun s => ?_
  refine Moves.bind (Moves.modify fun _ => rfl) fun _ => ?_
  exact Moves.forM fun _ _ => (reportDelivery_keepsOuter _ _ _).inbound

end Keeps

/-! ### Executing a request -/

/-- The execution is what `handle_frame` did from some state of the adapter. -/
def Execution.Genuine (setup : Setup) (x : Execution) : Prop :=
  ∃ s : APRSAdapter, s.core.tables = x.before ∧
    ((handleFrame (dispatchRouted setup) x.callsign x.frame).run s).1 = x.outcome ∧
    ((handleFrame (dispatchRouted setup) x.callsign x.frame).run s).2.core.tables = x.after

section Receive

variable {setup : Setup} {key : TransactionKey} {frame : Bytes} {now : ℚ}

theorem anyError_eq_ok {responses : List Bytes}
    (h : ∀ data ∈ responses, ∃ response, decodeFrame data = .ok response) :
    ∃ found, anyError responses = .ok found := by
  induction responses with
  | nil => exact ⟨false, rfl⟩
  | cons data responses ih =>
    obtain ⟨response, hdata⟩ := h data List.mem_cons_self
    obtain ⟨found, hfound⟩ := ih fun r hr => h r (List.mem_cons_of_mem _ hr)
    rw [anyError, hdata, Py.ok_bind]
    split
    · exact ⟨true, rfl⟩
    · exact ⟨found, hfound⟩

/-- A callsign that Core accepted can be activated. -/
theorem setAprs_returns {peer callsign : Str}
    (h : normalizeCallsign peer "APRS source" = .ok callsign) (core : CoreState) :
    ((CoreState.setAprs callsign peer).run core).1 = .ok () := by
  have hpeer : peer ≠ [] := by
    rintro rfl
    have hbase : normalizeCallsign [] "APRS source" = .error (.invalidField
        "APRS source must contain between 3 and 12 UTF-8 bytes") := by decide
    exact absurd (hbase.symm.trans h) nofun
  rw [CoreState.setAprs, validateCallsign_field h, run_ofExcept_ok_bind, raiseIf_of_not hpeer]
  rfl

theorem activateAprs_returns {peer callsign : Str} {responses : List Bytes}
    (hcallsign : normalizeCallsign peer "APRS source" = .ok callsign)
    (hresponses : ∀ data ∈ responses, ∃ response, decodeFrame data = .ok response)
    (s : APRSAdapter) : ((activateAprs setup peer responses).run s).1 = .ok () := by
  obtain ⟨found, hfound⟩ := anyError_eq_ok hresponses
  rw [activateAprs]
  split
  · rfl
  · rw [hfound, run_ofExcept_ok_bind]
    split
    · rfl
    · rw [hcallsign, run_ofExcept_ok_bind]
      exact setAprs_returns hcallsign s.core

/-- `handle_frame` only adds to the history. -/
theorem executeFrame_yields (callsign : Str) (s : APRSAdapter) :
    (executeFrame setup key callsign frame).Yields s fun outcome s' =>
      ∃ x : Execution, x.Genuine setup ∧ x.key = key ∧ x.callsign = callsign ∧ x.frame = frame ∧
        x.outcome = outcome ∧
        s'.inbound = { s.inbound with executions := s.executions ++ [x] } := by
  have hkeeps : KeepsInbound (handleFrame (dispatchRouted setup) callsign frame) :=
    handleFrame_moves (fun _ _ => (dispatchRouted_keepsOuter _ _).inbound) callsign frame
  have hinbound := hkeeps s
  set result := (handleFrame (dispatchRouted setup) callsign frame).run s with hresult
  refine ⟨⟨key, callsign, frame, result.1, s.core.tables, result.2.core.tables⟩,
    ⟨s, rfl, rfl, rfl⟩, rfl, rfl, rfl, rfl, ?_⟩
  simp only [Keeps, APRSAdapter.inbound, Inbound.mk.injEq] at hinbound
  obtain ⟨h1, h2, h3, h4⟩ := hinbound
  simp only [executeFrame, ← hresult, APRSAdapter.inbound, h1, h2, h3, h4]

/-- What `completeRequest` does to the inbound half: nothing, or one execution, after which the
request is in the replay cache if it returned. -/
inductive Handled (setup : Setup) (key : TransactionKey) (frame : Bytes) (now : ℚ) (i : Inbound) :
    Py Disposition → Inbound → Prop
  | refused {e : PyError} : Handled setup key frame now i (.error e) i
  | notRequest : Handled setup key frame now i (.ok .invalid) i
  | failed {x : Execution} {e : PyError} (genuine : x.Genuine setup) (key_eq : x.key = key)
      (frame_eq : x.frame = frame) (outcome_eq : x.outcome = .error e) :
      Handled setup key frame now i (.error e) { i with executions := i.executions ++ [x] }
  | completed {x : Execution} {responses : List Bytes} {outcome : Py Disposition}
      (genuine : x.Genuine setup) (key_eq : x.key = key) (frame_eq : x.frame = frame)
      (outcome_eq : x.outcome = .ok responses) (returns : ∀ d, outcome = .ok d → d = .completed) :
      Handled setup key frame now i outcome { i with
        executions := i.executions ++ [x]
        replay := i.replay.put setup.config.replay key ⟨frame, responses, now⟩ }

/-- Neither the assemblies nor the progress change. -/
theorem Handled.tables_eq {key : TransactionKey} {frame : Bytes} {i i' : Inbound}
    {outcome : Py Disposition} (h : Handled setup key frame now i outcome i') :
    i'.reassembly = i.reassembly ∧ i'.rxProgress = i.rxProgress := by
  cases h <;> exact ⟨rfl, rfl⟩

theorem Handled.refused_of_keeps {s s' : APRSAdapter} (h : Keeps APRSAdapter.inbound s s')
    (e : PyError) : Handled setup key frame now s.inbound (.error e) s'.inbound := by
  rw [show s'.inbound = s.inbound from h]
  exact .refused

/-- The request enters the replay cache before anything else can raise. -/
theorem finishRequest_inbound {messageId : Option Str} {callsign : Str} {request : ProtocolObject}
    {responses : List Bytes} (hcallsign : normalizeCallsign key.1 "APRS source" = .ok callsign)
    (hresponses : ∀ data ∈ responses, ∃ response, decodeFrame data = .ok response)
    (s : APRSAdapter) :
    (finishRequest setup key messageId callsign request frame responses now).Yields s
      fun outcome s' => (∀ d, outcome = .ok d → d = .completed) ∧
        s'.inbound = { s.inbound with
          replay := s.replay.put setup.config.replay key ⟨frame, responses, now⟩ } := by
  refine Yields.bind
    (Yields.and (Yields.of_moves (activateAprs_keepsOuter responses).inbound)
      (Yields.of_outcome (activateAprs_returns hcallsign hresponses s))) (fun _ s₁ hs₁ => ?_)
    fun _ _ h => by cases h.2
  refine Yields.modify_bind (Yields.modify_bind (Yields.modify_bind ?_))
  generalize hs₂ : noteCompleted setup key callsign now _ = s₂
  have hinbound : s₂.inbound = { s.inbound with
      replay := s.replay.put setup.config.replay key ⟨frame, responses, now⟩ } := by
    have h := hs₁.1
    simp only [Keeps, APRSAdapter.inbound, Inbound.mk.injEq] at h
    simp only [← hs₂, APRSAdapter.inbound, noteCompleted, expireActivity, supersedeStaleBatches,
      supersedeBase, dropBatches, h]
  have hraised : ∀ {e : PyError} {s' : APRSAdapter}, s'.inbound = s₂.inbound →
      (∀ d, Except.error e = .ok d → d = Disposition.completed) ∧ s'.inbound = { s.inbound with
        replay := s.replay.put setup.config.replay key ⟨frame, responses, now⟩ } := by
    intro e s' hs'
    refine ⟨fun d h => ?_, hs'.trans hinbound⟩
    cases h
  split
  · refine Yields.ofExcept_bind (fun stored _ => ?_) fun _ _ => hraised rfl
    refine Yields.bind_of_moves (confirmInbound_keepsInbound _ _) (fun _ s' hs' => ?_)
      fun _ s' hs' => hraised hs'
    exact ⟨fun d h => (Except.ok.inj h).symm, Eq.trans hs' hinbound⟩
  · refine Yields.bind_of_moves (queueResponses_keepsOuter _ _).inbound (fun _ s' hs' => ?_)
      fun _ s' hs' => hraised hs'
    exact ⟨fun d h => (Except.ok.inj h).symm, Eq.trans hs' hinbound⟩

theorem completeRequest_handled (messageId : Option Str) (s : APRSAdapter) :
    (completeRequest setup key messageId frame now).Yields s fun outcome s' =>
      Handled setup key frame now s.inbound outcome s'.inbound := by
  refine Yields.ofExcept_bind (fun request _ => ?_) fun _ _ => .refused
  split
  · refine Yields.bind_of_moves (Moves.when (confirmInbound_keepsInbound _ _))
      (fun _ s' hs => ?_) fun _ s' hs => .refused_of_keeps hs _
    rw [Yields.pure_iff, hs]
    exact .notRequest
  refine Yields.bind_of_moves (Moves.when (confirmInbound_keepsInbound _ _))
    (fun _ s₁ hs₁ => ?_) fun _ s₁ hs₁ => .refused_of_keeps hs₁ _
  rw [← show s₁.inbound = s.inbound from hs₁]
  refine Yields.ofExcept_bind (fun callsign hcallsign => ?_) fun _ _ => .refused
  refine Yields.bind_of_moves (reconcileRequest_keepsOuter _ _).inbound
    (fun _ s₂ hs₂ => ?_) fun _ s₂ hs₂ => .refused_of_keeps hs₂ _
  rw [← show s₂.inbound = s₁.inbound from hs₂]
  refine Yields.bind (executeFrame_yields callsign s₂) (fun responses s₃ hx => ?_)
    fun e s₃ hx => ?_
  · obtain ⟨x, hgenuine, hkey, -, hframe, houtcome, hs₃⟩ := hx
    have hdecodes : ∀ data ∈ responses, ∃ response, decodeFrame data = .ok response := by
      obtain ⟨s₀, -, hrun, -⟩ := hgenuine
      obtain ⟨objects, hobjects⟩ := handleFrame_responses (hrun.trans houtcome)
      exact fun data hdata => (decodeFrame_of_mem_responses hobjects hdata).imp fun _ h => h.2
    refine Yields.mono (finishRequest_inbound hcallsign hdecodes s₃) fun outcome s' hs' => ?_
    rw [hs'.2, hs₃, show s₃.replay = s₂.replay from congrArg Inbound.replay hs₃]
    exact .completed hgenuine hkey hframe houtcome hs'.1
  · obtain ⟨x, hgenuine, hkey, -, hframe, houtcome, hs₃⟩ := hx
    rw [hs₃]
    exact .failed hgenuine hkey hframe houtcome

theorem replayRequest_keepsInbound (messageId : Option Str) (cached : Replay) :
    KeepsInbound (replayRequest setup key messageId cached frame) := by
  refine Moves.ite (Moves.bind (Moves.when (confirmInbound_keepsInbound _ _)) fun _ =>
    Moves.pure _) ?_
  refine Moves.bind (Moves.ofExcept _) fun request => ?_
  refine Moves.bind (activateAprs_keepsOuter _).inbound fun _ => ?_
  refine Moves.bind (Moves.modify fun _ => rfl) fun _ => ?_
  refine Moves.ite ?_ ?_
  · exact Moves.bind (Moves.ofExcept _) fun _ =>
      Moves.bind (confirmInbound_keepsInbound _ _) fun _ => Moves.pure _
  · refine Moves.bind (Moves.when (confirmInbound_keepsInbound _ _)) fun _ => ?_
    refine Moves.bind (Moves.forM fun _ _ => ?_) fun _ => Moves.pure _
    exact Moves.bind (queueFrame_keepsOuter _ _).inbound fun _ => Moves.pure _

/-! ### Receiving a packet -/

namespace Inbound

/-- What the replay cache holds at `now`. -/
def cached (setup : Setup) (key : TransactionKey) (now : ℚ) (i : Inbound) : Option Replay :=
  (i.replay.get setup.config.replay key now).1

/-- The replay cache after a look-up at `now`. -/
def lookUp (setup : Setup) (key : TransactionKey) (now : ℚ) (i : Inbound) : Inbound :=
  { i with replay := (i.replay.get setup.config.replay key now).2 }

/-- The progress of a transaction is noted. -/
def note (setup : Setup) (key : TransactionKey) (fragment : APRSFragment) (now : ℚ) (i : Inbound) :
    Inbound :=
  { i with rxProgress := i.rxProgress.set key (.note setup fragment now (i.rxProgress.get? key)) }

/-- The progress of a transaction is forgotten. -/
def forget (key : TransactionKey) (i : Inbound) : Inbound :=
  { i with rxProgress := i.rxProgress.erase key }

/-- Forgetting undoes the note of a fragment. -/
theorem forget_note (fragment : APRSFragment) (reassembly : Reassembler) (i : Inbound) :
    ({ i.note setup key fragment now with reassembly } : Inbound).forget key =
      { i.forget key with reassembly } := by
  simp only [forget, note, OrderedDict.erase_set]

end Inbound

theorem Inbound.lookUp_lookUp (i : Inbound) :
    (i.lookUp setup key now).lookUp setup key now = i.lookUp setup key now := by
  simp only [Inbound.lookUp, ReplayCache.get_get]

theorem Inbound.cached_lookUp (i : Inbound) :
    (i.lookUp setup key now).cached setup key now = i.cached setup key now :=
  congrArg Prod.fst ReplayCache.get_get

/-- What `receive` does to the inbound half. -/
inductive Received (setup : Setup) (peer body : Str) (now : ℚ) (i : Inbound) :
    Py Disposition → Inbound → Prop
  /-- The packet is not a fragment from a valid address. -/
  | noFragment {outcome : Py Disposition} (unparsed : ∀ result,
      parsePacket peer body ≠ .ok result) :
      Received setup peer body now i outcome i
  /-- The request of this transaction completed lately. -/
  | replayed {fragment : APRSFragment} {replay : Replay} {outcome : Py Disposition}
      (parsed : parsePacket peer body = .ok (peer, fragment))
      (hit : i.cached setup (peer, fragment.transactionId) now = some replay)
      (returns : ∀ d, outcome = .ok d → d = .replayed) :
      Received setup peer body now i outcome
        ((i.lookUp setup (peer, fragment.transactionId) now).forget (peer, fragment.transactionId))
  /-- Some fragments are still missing. -/
  | collected {fragment : APRSFragment} {reassembly : Reassembler}
      (parsed : parsePacket peer body = .ok (peer, fragment))
      (miss : i.cached setup (peer, fragment.transactionId) now = none)
      (added : i.reassembly.add setup.config.reassembly peer fragment now =
        (.ok none, reassembly)) :
      Received setup peer body now i (.ok .fragment)
        { (i.lookUp setup (peer, fragment.transactionId) now).note setup
            (peer, fragment.transactionId) fragment now with
          reassembly }
  /-- The fragments do not fit together. -/
  | rejected {fragment : APRSFragment} {reassembly : Reassembler} {e : PyError} {d : Disposition}
      (parsed : parsePacket peer body = .ok (peer, fragment))
      (miss : i.cached setup (peer, fragment.transactionId) now = none)
      (added : i.reassembly.add setup.config.reassembly peer fragment now = (.error e, reassembly))
      (returns : d = .conflict ∨ d = .invalid) :
      Received setup peer body now i (.ok d)
        { (i.lookUp setup (peer, fragment.transactionId) now).forget (peer, fragment.transactionId)
          with reassembly }
  /-- The reassembler raised something else. -/
  | crashed {fragment : APRSFragment} {reassembly : Reassembler} {e : PyError}
      (parsed : parsePacket peer body = .ok (peer, fragment))
      (miss : i.cached setup (peer, fragment.transactionId) now = none)
      (added : i.reassembly.add setup.config.reassembly peer fragment now =
        (.error e, reassembly)) :
      Received setup peer body now i (.error e)
        { (i.lookUp setup (peer, fragment.transactionId) now).note setup
            (peer, fragment.transactionId) fragment now with
          reassembly }
  /-- The request is complete and was handled; acknowledging it looks it up again. -/
  | complete {fragment : APRSFragment} {reassembly : Reassembler} {frame : Bytes}
      {d : Disposition} {i' i'' : Inbound}
      (parsed : parsePacket peer body = .ok (peer, fragment))
      (miss : i.cached setup (peer, fragment.transactionId) now = none)
      (added : i.reassembly.add setup.config.reassembly peer fragment now =
        (.ok (some frame), reassembly))
      (effect : Handled setup (peer, fragment.transactionId) frame now
        { (i.lookUp setup (peer, fragment.transactionId) now).note setup
            (peer, fragment.transactionId) fragment now with
          reassembly } (.ok d) i')
      (again : i'' = i' ∨ i'' = i'.lookUp setup (peer, fragment.transactionId) now) :
      Received setup peer body now i (.ok d) (i''.forget (peer, fragment.transactionId))
  /-- The request is complete, and handling or acknowledging it raised. -/
  | raised {fragment : APRSFragment} {reassembly : Reassembler} {frame : Bytes}
      {handled : Py Disposition} {e : PyError} {i' i'' : Inbound}
      (parsed : parsePacket peer body = .ok (peer, fragment))
      (miss : i.cached setup (peer, fragment.transactionId) now = none)
      (added : i.reassembly.add setup.config.reassembly peer fragment now =
        (.ok (some frame), reassembly))
      (effect : Handled setup (peer, fragment.transactionId) frame now
        { (i.lookUp setup (peer, fragment.transactionId) now).note setup
            (peer, fragment.transactionId) fragment now with
          reassembly } handled i')
      (again : i'' = i' ∨ i'' = i'.lookUp setup (peer, fragment.transactionId) now) :
      Received setup peer body now i (.error e) i''

section Steps

variable {peer body : Str} {fragment : APRSFragment}

theorem validatePeer_eq_ok {peer' : Str} (h : validatePeer peer = .ok peer') : peer' = peer := by
  obtain ⟨_, -, h⟩ := Py.bind_eq_ok.mp h
  obtain ⟨_, -, h⟩ := Py.bind_eq_ok.mp h
  exact (Except.ok.inj h).symm

theorem parsePacket_eq_ok {peer' : Str} (h : parsePacket peer body = .ok (peer', fragment)) :
    peer' = peer ∧ validatePeer peer = .ok peer ∧ parseFragment body = .ok fragment := by
  obtain ⟨p, hp, h⟩ := Py.bind_eq_ok.mp h
  obtain ⟨f, hf, h⟩ := Py.bind_eq_ok.mp h
  obtain ⟨rfl, rfl⟩ := Prod.mk.inj (Except.ok.inj h)
  exact ⟨validatePeer_eq_ok hp, by rw [hp, validatePeer_eq_ok hp], hf⟩

/-- Without a fragment the inbound half stays as it is. -/
theorem receive_unparsed (h : ∀ result, parsePacket peer body ≠ .ok result) :
    KeepsInbound (receive setup peer body now) := by
  have hconfirm : ∀ messageId, KeepsInbound (do
      Method.when (commitAckRequested messageId = true) (confirmInbound setup peer messageId false)
      return Disposition.ignored) := fun messageId =>
    Moves.bind (Moves.when (confirmInbound_keepsInbound _ _)) fun _ => Moves.pure _
  have hcommit : KeepsInbound (receiveCommit setup peer body now) := by
    rw [receiveCommit]
    split
    · exact Moves.ite (Moves.pure _) (Moves.raise _)
    · next peer' hpeer =>
      obtain rfl := validatePeer_eq_ok hpeer
      split
      · exact (receiveLegacyAck_keepsOuter _).inbound
      · refine Moves.bind (Moves.when (confirmInbound_keepsInbound _ _)) fun _ => ?_
        split
        · exact Moves.ite (hconfirm _) (Moves.raise _)
        · next fragment hfragment =>
          refine absurd ?_ (h (peer', fragment))
          rw [parsePacket, hpeer, Py.ok_bind, hfragment]
          rfl
  have hburst : KeepsInbound (receiveBurst setup peer body now) := by
    rw [receiveBurst]
    split
    · exact Moves.ite (Moves.pure _) (Moves.raise _)
    · next peer' hpeer =>
      obtain rfl := validatePeer_eq_ok hpeer
      split
      · exact (receiveControl_keepsOuter _).inbound
      · split
        · exact Moves.ite hcommit (Moves.raise _)
        · next fragment hfragment =>
          refine absurd ?_ (h (peer', fragment))
          rw [parsePacket, hpeer, Py.ok_bind, hfragment]
          rfl
  rw [receive]
  split
  · exact Moves.ite hburst (Moves.raise _)
  · next hparse => exact absurd hparse (h _)

/-! #### A fragment -/

theorem confirmInbound_accepted (messageId : Option Str) :
    confirmInbound setup peer messageId true = pure () := rfl

theorem when_pure (p : Prop) [Decidable p] :
    Method.when p (pure () : Adapter Unit) = pure () := by
  rw [Method.when]
  split <;> rfl

/-- A confirmation never raises. -/
theorem confirmInbound_yields (messageId : Option Str) (p : Prop) [Decidable p] (accepted : Bool)
    (s : APRSAdapter) :
    (Method.when p (confirmInbound setup peer messageId accepted)).Yields s fun outcome s' =>
      outcome = .ok () ∧ s'.inbound = s.inbound := by
  refine Yields.and ?_ (Moves.when (confirmInbound_keepsInbound _ _) s)
  unfold Method.when confirmInbound confirmInboundBase
  split
  · split
    · rfl
    · split <;> rfl
  · rfl

theorem receiveCommit_of_parsed (h : parsePacket peer body = .ok (peer, fragment)) :
    receiveCommit setup peer body now =
      receiveFragment setup peer (trailingMessageId body) fragment now := by
  obtain ⟨-, hpeer, hfragment⟩ := parsePacket_eq_ok h
  have hack : matchAck body = none := by
    rw [matchAck]
    refine if_neg fun hm => ?_
    rcases parseFragment_take hfragment with hf | hf
    · have hf' : body.take 2 = (str "ack").take 2 := by rw [← hm.1, List.take_take]; rfl
      exact absurd (hf.symm.trans hf') (by decide)
    · exact absurd (hf.symm.trans hm.1) (by decide)
  simp only [receiveCommit, hpeer, hack, hfragment, confirmInbound_accepted, when_pure, pure_bind]

theorem receiveBurst_of_parsed (h : parsePacket peer body = .ok (peer, fragment)) :
    receiveBurst setup peer body now = receiveBurstFragment setup peer body fragment now := by
  obtain ⟨-, hpeer, hfragment⟩ := parsePacket_eq_ok h
  simp only [receiveBurst, hpeer, parseBurstControl_of_fragment hfragment, hfragment]

/-- What the commit layer does with a fragment of a transaction that is not in the replay cache. -/
theorem receiveFragment_yields (messageId : Option Str) (s : APRSAdapter)
    (hmiss : s.inbound.cached setup (peer, fragment.transactionId) now = none)
    (hlook : s.inbound.lookUp setup (peer, fragment.transactionId) now = s.inbound) :
    (receiveFragment setup peer messageId fragment now).Yields s fun outcome s' =>
      (∃ reassembly, s.reassembly.add setup.config.reassembly peer fragment now =
          (.ok none, reassembly) ∧
        outcome = .ok .fragment ∧ s'.inbound = { s.inbound with reassembly }) ∨
      (∃ e reassembly, s.reassembly.add setup.config.reassembly peer fragment now =
          (.error e, reassembly) ∧
        (outcome = .error e ∨ outcome = .ok .conflict ∨ outcome = .ok .invalid) ∧
        s'.inbound = { s.inbound with reassembly }) ∨
      (∃ frame reassembly, s.reassembly.add setup.config.reassembly peer fragment now =
          (.ok (some frame), reassembly) ∧
        Handled setup (peer, fragment.transactionId) frame now { s.inbound with reassembly } outcome
          s'.inbound) := by
  rcases hadd : s.reassembly.add setup.config.reassembly peer fragment now with ⟨result, reassembly⟩
  refine Yields.bind (Q := fun outcome s' => outcome = .ok result ∧
    s' = { s with reassembly }) ?_ ?_ fun _ _ h => absurd h.1 nofun
  · show _ ∧ _
    simp only [onReassembly, hadd, and_self]
  rintro added _ ⟨hadded, rfl⟩
  obtain rfl := Except.ok.inj hadded
  match added with
  | .error e =>
    refine Yields.mono (P := fun (outcome : Py Disposition) (s' : APRSAdapter) =>
      (outcome = .error e ∨ outcome = .ok .conflict ∨ outcome = .ok .invalid) ∧
        s'.inbound = { s.inbound with reassembly }) ?_
      fun outcome s' h => .inr (.inl ⟨e, reassembly, rfl, h⟩)
    dsimp only
    split
    · refine Yields.bind (confirmInbound_yields _ _ _ _) (fun _ s' h => ?_)
        fun _ _ h => absurd h.1 nofun
      refine ⟨.inr ?_, h.2⟩
      split
      · exact .inl rfl
      · exact .inr rfl
    · exact ⟨.inl rfl, rfl⟩
  | .ok none =>
    refine Yields.bind (confirmInbound_yields _ _ _ _) (fun _ s' h => ?_)
      fun _ _ h => absurd h.1 nofun
    exact .inl ⟨reassembly, rfl, rfl, h.2⟩
  | .ok (some frame) =>
    refine Yields.bind (Q := fun outcome s' => outcome = .ok none ∧
      s'.inbound = { s.inbound with reassembly }) ?_ ?_ fun _ _ h => absurd h.1 nofun
    · refine ⟨congrArg Except.ok hmiss, ?_⟩
      exact congrArg (fun i : Inbound => { i with reassembly }) hlook
    · rintro _ s' ⟨hnone, hs'⟩
      obtain rfl := Except.ok.inj hnone
      refine Yields.mono (completeRequest_handled messageId s') fun outcome s'' h => ?_
      exact .inr (.inr ⟨frame, reassembly, rfl, hs' ▸ h⟩)

/-- Acknowledging a request at most looks it up once more. -/
theorem acknowledgeRequest_inbound (s : APRSAdapter) :
    (acknowledgeRequest setup key now).Yields s fun _ s' =>
      s'.inbound = s.inbound ∨ s'.inbound = s.inbound.lookUp setup key now := by
  refine Yields.ofExcept_bind (fun ack _ => ?_) fun _ _ => .inl rfl
  refine Yields.bind_of_moves (sendImmediately_keepsInbound _) (fun _ s₁ hs₁ => ?_)
    fun _ s₁ hs₁ => .inl hs₁
  refine Yields.bind (Q := fun _ s₂ => s₂.inbound = s.inbound.lookUp setup key now) ?_
    (fun found s₂ hs₂ => ?_) fun _ _ h => .inr h
  · exact congrArg (Inbound.lookUp setup key now) hs₁
  · have hkeeps : ∀ {m : Adapter Unit}, KeepsInbound m → m.Yields s₂ fun _ s' =>
        s'.inbound = s.inbound ∨ s'.inbound = s.inbound.lookUp setup key now :=
      fun hm => Yields.mono (Yields.of_moves hm) fun _ s' h => .inr (Eq.trans h hs₂)
    cases found with
    | none => exact hkeeps (Moves.pure _)
    | some replay =>
      refine hkeeps (Moves.bind (Moves.ofExcept _) fun _ => Moves.when ?_)
      refine Moves.bind (Moves.modify fun _ => rfl) fun _ => ?_
      exact Moves.bind (Moves.ofExcept _) fun _ => sendImmediately_keepsInbound _

theorem Handled.ok_cases {frame : Bytes} {i i' : Inbound} {d : Disposition}
    (h : Handled setup key frame now i (.ok d) i') : d = .completed ∨ d = .invalid := by
  cases h with
  | notRequest => exact .inr rfl
  | completed _ _ _ _ returns => exact .inl (returns d rfl)

/-- The burst layer, for a fragment of a transaction that is not in the replay cache. -/
theorem receiveBurstFragment_received {i : Inbound} (s : APRSAdapter)
    (parsed : parsePacket peer body = .ok (peer, fragment))
    (miss : i.cached setup (peer, fragment.transactionId) now = none)
    (hs : s.inbound = i.lookUp setup (peer, fragment.transactionId) now) :
    (receiveBurstFragment setup peer body fragment now).Yields s fun outcome s' =>
      Received setup peer body now i outcome s'.inbound := by
  refine Yields.modify_bind ?_
  generalize hs₁ : ({ s with
    rxProgress := s.rxProgress.set (peer, fragment.transactionId)
      (.note setup fragment now (s.rxProgress.get? (peer, fragment.transactionId))) } :
    APRSAdapter) = s₁
  have hinbound : s₁.inbound = (i.lookUp setup (peer, fragment.transactionId) now).note setup
      (peer, fragment.transactionId) fragment now := by
    rw [← hs₁, ← hs]
    rfl
  have hmiss : s₁.inbound.cached setup (peer, fragment.transactionId) now = none := by
    rw [hinbound]
    exact (Inbound.cached_lookUp i).trans miss
  have hlook : s₁.inbound.lookUp setup (peer, fragment.transactionId) now = s₁.inbound := by
    rw [hinbound]
    exact congrArg (fun i : Inbound => i.note setup (peer, fragment.transactionId) fragment now)
      (Inbound.lookUp_lookUp i)
  have hreassembly : s₁.reassembly = i.reassembly := congrArg Inbound.reassembly hinbound
  rw [receiveCommit_of_parsed parsed]
  refine Yields.bind (receiveFragment_yields _ s₁ hmiss hlook) (fun d s₂ hs₂ => ?_)
    fun e s₂ hs₂ => ?_
  · rw [hreassembly, hinbound] at hs₂
    rcases hs₂ with ⟨reassembly, hadd, hd, hs₂⟩ | ⟨e, reassembly, hadd, hd, hs₂⟩ |
      ⟨frame, reassembly, hadd, heffect⟩
    · obtain rfl := Except.ok.inj hd
      show Received setup peer body now i (.ok .fragment) s₂.inbound
      rw [hs₂]
      exact .collected parsed miss hadd
    · have hd : d = .conflict ∨ d = .invalid := by
        rcases hd with hd | hd | hd
        · cases hd
        · exact .inl (Except.ok.inj hd)
        · exact .inr (Except.ok.inj hd)
      rw [when_false (by rcases hd with rfl | rfl <;> decide), pure_bind,
        when_true (by rcases hd with rfl | rfl <;> decide)]
      show Received setup peer body now i (.ok d)
        (s₂.inbound.forget (peer, fragment.transactionId))
      rw [hs₂, Inbound.forget_note]
      exact .rejected parsed miss hadd hd
    · rcases heffect.ok_cases with rfl | rfl
      · rw [when_true (.inl rfl)]
        refine Yields.bind (acknowledgeRequest_inbound s₂) (fun _ s₃ hs₃ => ?_)
          fun e s₃ hs₃ => .raised parsed miss hadd heffect hs₃
        rw [when_true (.inl rfl)]
        exact .complete parsed miss hadd heffect hs₃
      · rw [when_false (by decide), pure_bind, when_true (by decide)]
        exact .complete parsed miss hadd heffect (.inl rfl)
  · rw [hreassembly, hinbound] at hs₂
    rcases hs₂ with ⟨_, _, h, -⟩ | ⟨e, reassembly, hadd, h, hs₂⟩ | ⟨frame, reassembly, hadd,
      heffect⟩
    · cases h
    · obtain rfl : e = _ := by
        rcases h with h | h | h
        · exact (Except.error.inj h).symm
        · cases h
        · cases h
      rw [hs₂]
      exact .crashed parsed miss hadd
    · exact .raised parsed miss hadd heffect (.inl rfl)

/-- Every call of `receive` is one of the cases. -/
theorem receive_received (s : APRSAdapter) :
    (receive setup peer body now).Yields s fun outcome s' =>
      Received setup peer body now s.inbound outcome s'.inbound := by
  by_cases hparse : ∃ result, parsePacket peer body = .ok result
  · obtain ⟨⟨peer', fragment⟩, parsed⟩ := hparse
    obtain rfl := (parsePacket_eq_ok parsed).1
    rw [receive]
    simp only [parsed]
    refine Yields.bind (Q := fun outcome s₁ =>
      outcome = .ok (s.inbound.cached setup (peer', fragment.transactionId) now) ∧
        s₁.inbound = s.inbound.lookUp setup (peer', fragment.transactionId) now)
      ⟨rfl, rfl⟩ ?_ fun _ _ h => absurd h.1 nofun
    rintro found s₁ ⟨hfound, hs₁⟩
    have hfound := Except.ok.inj hfound
    cases found with
    | none =>
      dsimp only
      rw [receiveBurst_of_parsed parsed]
      exact receiveBurstFragment_received s₁ parsed hfound.symm hs₁
    | some replay =>
      refine Yields.modify_bind ?_
      refine Yields.mono (P := fun outcome s' => (∀ d, outcome = .ok d → d = .replayed) ∧
        s'.inbound = (s.inbound.lookUp setup (peer', fragment.transactionId) now).forget
          (peer', fragment.transactionId)) ?_ fun outcome s' h => ?_
      · generalize hs₂ : ({ s₁ with
          rxProgress := s₁.rxProgress.erase (peer', fragment.transactionId) } : APRSAdapter) = s₂
        have hinbound : s₂.inbound = (s.inbound.lookUp setup (peer', fragment.transactionId)
            now).forget (peer', fragment.transactionId) := by
          rw [← hs₂, ← hs₁]
          rfl
        have hlook : s₂.inbound.lookUp setup (peer', fragment.transactionId) now =
            s₂.inbound := by
          rw [hinbound]
          exact congrArg (Inbound.forget (peer', fragment.transactionId))
            (Inbound.lookUp_lookUp s.inbound)
        rw [← hinbound]
        refine Yields.bind (acknowledgeRequest_inbound s₂) (fun _ s₃ hs₃ => ?_) fun e s₃ hs₃ => ?_
        all_goals rw [hlook, or_self] at hs₃
        · exact ⟨fun d h => (Except.ok.inj h).symm, hs₃⟩
        · exact ⟨nofun, hs₃⟩
      · rw [h.2]
        exact .replayed parsed hfound.symm h.1
  · rw [not_exists] at hparse
    refine Yields.mono (Yields.of_moves (receive_unparsed hparse)) fun outcome s' hs' => ?_
    rw [show s'.inbound = s.inbound from hs']
    exact .noFragment hparse

end Steps

end Receive

end OpenQSP
