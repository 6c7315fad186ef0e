import OpenQSP.Aprs.Execution
import OpenQSP.Aprs.History

/-!
# At most one execution

A request that Core has executed is not executed again under the same peer and transaction before
its entry leaves the replay cache. An entry leaves the cache when it is too old, or when so many
other transactions of its peer, or of all peers, were used after its own last use that it had to
give way.

## Main definitions

* `Executes`, `Completes`, `Replays`, `Uses` — what a call does with a transaction
* `CacheEffect` — what a call does to the replay cache
* `RemembersAt`, `CrowdedOut` — the two sides of the recency argument

## Main results

* `cacheEffect` — every call has one of the effects
* `remembersAt_or_crowdedOut` — the invariant of a run
* **`executesAtMostOnce`** — what happened between two executions of one transaction
-/

namespace OpenQSP

open APRSAdapter Method

/-! ### What a call does with a transaction -/

section Uses

variable (setup : Setup) (key : TransactionKey) (s : APRSAdapter) (call : Call)

/-- The call has Core execute a request of the transaction. -/
def Executes : Prop := ∃ x, (step setup s call).executions = s.executions ++ [x] ∧ x.key = key

/-- The call has Core execute a request of the transaction, and Core returns. -/
def Completes : Prop := ∃ x responses, (step setup s call).executions = s.executions ++ [x] ∧
  x.key = key ∧ x.outcome = .ok responses

/-- The call is a fragment of a transaction whose result is in the replay cache. -/
def Replays : Prop := ∃ peer body now fragment, call = .receive peer body now ∧
  parsePacket peer body = .ok (peer, fragment) ∧ key = (peer, fragment.transactionId) ∧
  s.inbound.cached setup key now ≠ none

/-- The transaction completes or is replayed. -/
def Uses : Prop := Completes setup key s call ∨ Replays setup key s call

end Uses

variable {setup : Setup} {key : TransactionKey} {s : APRSAdapter} {call : Call}

theorem Completes.executes (h : Completes setup key s call) : Executes setup key s call := by
  obtain ⟨x, responses, hexec, hkey, -⟩ := h
  exact ⟨x, hexec, hkey⟩

theorem not_completes_of_executions (h : (step setup s call).executions = s.executions) :
    ¬Completes setup key s call := by
  rintro ⟨x, responses, hexec, -⟩
  exact List.cons_ne_nil x [] (List.append_right_eq_self.mp (hexec.symm.trans h))

theorem completes_iff {x : Execution} (h : (step setup s call).executions = s.executions ++ [x]) :
    Completes setup key s call ↔ x.key = key ∧ ∃ responses, x.outcome = .ok responses := by
  constructor
  · rintro ⟨y, responses, hexec, hkey, houtcome⟩
    obtain rfl : x = y := by
      have := List.append_cancel_left (h.symm.trans hexec)
      exact List.head_eq_of_cons_eq this
    exact ⟨hkey, responses, houtcome⟩
  · rintro ⟨hkey, responses, houtcome⟩
    exact ⟨x, responses, h, hkey, houtcome⟩

theorem replays_iff {peer body : Str} {now : ℚ} {fragment : APRSFragment}
    (parsed : parsePacket peer body = .ok (peer, fragment)) :
    Replays setup key s (.receive peer body now) ↔
      key = (peer, fragment.transactionId) ∧ s.inbound.cached setup key now ≠ none := by
  constructor
  · rintro ⟨peer', body', now', fragment', hcall, hparsed, hkey, hcached⟩
    obtain ⟨rfl, rfl, rfl⟩ := Call.receive.inj hcall
    obtain rfl := (Prod.mk.inj (Except.ok.inj (parsed.symm.trans hparsed))).2
    exact ⟨hkey, hcached⟩
  · rintro ⟨hkey, hcached⟩
    exact ⟨peer, body, now, fragment, rfl, parsed, hkey, hcached⟩

/-- What a call does to the replay cache, and which transactions it uses. -/
inductive CacheEffect (setup : Setup) (s : APRSAdapter) (call : Call) : ReplayCache → Prop
  | kept (unused : ∀ key, ¬Uses setup key s call) : CacheEffect setup s call s.replay
  | expired {now : ℚ} (time : call.time = some now) (unused : ∀ key, ¬Uses setup key s call) :
      CacheEffect setup s call (s.replay.expire setup.config.replay now)
  | lookedUp {now : ℚ} {key : TransactionKey} (time : call.time = some now)
      (uses : ∀ key', Uses setup key' s call ↔
        key' = key ∧ (s.replay.get setup.config.replay key now).1 ≠ none)
      (incomplete : ∀ key', ¬Completes setup key' s call) :
      CacheEffect setup s call (s.replay.get setup.config.replay key now).2
  | completed {now : ℚ} {key : TransactionKey} {value : Replay} {entries entries' : ReplayCache}
      (time : call.time = some now) (uses : ∀ key', Uses setup key' s call ↔ key' = key)
      (created : value.createdAt = now)
      (miss : (s.replay.get setup.config.replay key now).1 = none)
      (looked : entries = (s.replay.get setup.config.replay key now).2.put setup.config.replay key
        value)
      (again : entries' = entries ∨ entries' = (entries.get setup.config.replay key now).2) :
      CacheEffect setup s call entries'

theorem cacheEffect_receive {peer body : Str} {now : ℚ} {outcome : Py Disposition} {i : Inbound}
    (h : Received setup peer body now s.inbound outcome i)
    (hi : (step setup s (.receive peer body now)).inbound = i) :
    CacheEffect setup s (.receive peer body now) i.replay := by
  have hexec : (step setup s (.receive peer body now)).executions = i.executions :=
    congrArg Inbound.executions hi
  -- A packet that Core executes nothing for uses what its look-up finds.
  have hlooked : ∀ {fragment : APRSFragment}, parsePacket peer body = .ok (peer, fragment) →
      (∀ key, ¬Completes setup key s (.receive peer body now)) →
      CacheEffect setup s (.receive peer body now)
        (s.replay.get setup.config.replay (peer, fragment.transactionId) now).2 := by
    intro fragment parsed hnot
    refine .lookedUp rfl (fun key' => ?_) hnot
    rw [Uses, or_iff_right (hnot key'), replays_iff parsed]
    constructor
    · rintro ⟨rfl, hhit⟩
      exact ⟨rfl, hhit⟩
    · rintro ⟨rfl, hhit⟩
      exact ⟨rfl, hhit⟩
  have hhandled : ∀ {fragment : APRSFragment} {frame : Bytes} {reassembly : Reassembler}
      {handled : Py Disposition} {i' : Inbound},
      parsePacket peer body = .ok (peer, fragment) →
      s.inbound.cached setup (peer, fragment.transactionId) now = none →
      Handled setup (peer, fragment.transactionId) frame now
        { (s.inbound.lookUp setup (peer, fragment.transactionId) now).note setup
            (peer, fragment.transactionId) fragment now with reassembly } handled i' →
      (i.replay = i'.replay ∨
        i.replay = (i'.replay.get setup.config.replay (peer, fragment.transactionId) now).2) →
      i.executions = i'.executions → CacheEffect setup s (.receive peer body now) i.replay := by
    intro fragment frame reassembly handled i' parsed hmiss heffect hagain hexec'
    cases heffect with
    | refused =>
      have hreplay : i.replay =
          (s.replay.get setup.config.replay (peer, fragment.transactionId) now).2 :=
        hagain.elim id fun h => h.trans (congrArg Prod.snd ReplayCache.get_get)
      rw [hreplay]
      exact hlooked parsed fun key => not_completes_of_executions (hexec.trans hexec')
    | notRequest =>
      have hreplay : i.replay =
          (s.replay.get setup.config.replay (peer, fragment.transactionId) now).2 :=
        hagain.elim id fun h => h.trans (congrArg Prod.snd ReplayCache.get_get)
      rw [hreplay]
      exact hlooked parsed fun key => not_completes_of_executions (hexec.trans hexec')
    | failed _ _ _ outcome_eq =>
      have hreplay : i.replay =
          (s.replay.get setup.config.replay (peer, fragment.transactionId) now).2 :=
        hagain.elim id fun h => h.trans (congrArg Prod.snd ReplayCache.get_get)
      rw [hreplay]
      refine hlooked parsed fun key => ?_
      rw [completes_iff (hexec.trans hexec'), outcome_eq]
      exact fun h => absurd h.2.choose_spec nofun
    | @completed x responses _ _ key_eq _ outcome_eq _ =>
      refine .completed rfl (fun key' => ?_) rfl hmiss rfl
        hagain
      rw [Uses, completes_iff (hexec.trans hexec'), replays_iff parsed, key_eq, outcome_eq]
      constructor
      · rintro (h | h)
        · exact h.1.symm
        · exact h.1
      · rintro rfl
        exact .inl ⟨rfl, responses, rfl⟩
  cases h with
  | noFragment unparsed =>
    refine .kept fun key => not_or.mpr ⟨not_completes_of_executions hexec, ?_⟩
    rintro ⟨peer', body', now', fragment', hcall, hparsed, -⟩
    obtain ⟨rfl, rfl, rfl⟩ := Call.receive.inj hcall
    exact unparsed _ hparsed
  | replayed parsed => exact hlooked parsed fun key => not_completes_of_executions hexec
  | collected parsed => exact hlooked parsed fun key => not_completes_of_executions hexec
  | rejected parsed => exact hlooked parsed fun key => not_completes_of_executions hexec
  | crashed parsed => exact hlooked parsed fun key => not_completes_of_executions hexec
  | complete parsed miss _ effect again =>
    rcases again with rfl | rfl
    · exact hhandled parsed miss effect (.inl rfl) rfl
    · exact hhandled parsed miss effect (.inr rfl) rfl
  | raised parsed miss _ effect again =>
    rcases again with rfl | rfl
    · exact hhandled parsed miss effect (.inl rfl) rfl
    · exact hhandled parsed miss effect (.inr rfl) rfl

/-- Every call has one of the effects. -/
theorem cacheEffect (setup : Setup) (s : APRSAdapter) (call : Call) :
    CacheEffect setup s call (step setup s call).replay := by
  have hnotReceive : (∀ peer body now, call ≠ .receive peer body now) →
      (step setup s call).executions = s.executions → ∀ key, ¬Uses setup key s call := by
    intro hcall hexec key
    refine not_or.mpr ⟨not_completes_of_executions hexec, ?_⟩
    rintro ⟨peer, body, now, -, rfl, -⟩
    exact hcall peer body now rfl
  by_cases hcall : call.isInbound = false
  · have h : (step setup s call).inbound = s.inbound := step_inbound hcall s
    rw [show (step setup s call).replay = s.replay from congrArg Inbound.replay h]
    refine .kept (hnotReceive ?_ (congrArg Inbound.executions h))
    rintro peer body now rfl
    cases hcall
  cases call with
  | receive peer body now =>
    have h : (receive setup peer body now).Yields s _ := receive_received s
    rw [Yields, ← step_receive] at h
    exact cacheEffect_receive h rfl
  | poll now =>
    have h : (pollEmissions setup now).Yields s _ := pollEmissions_inbound s
    rw [Yields, ← step_poll] at h
    have hpoll : ∀ peer body now', Call.poll now ≠ .receive peer body now' := by
      intro _ _ _ hcall
      cases hcall
    obtain ⟨hexec, ⟨-, hreplay, -⟩ | ⟨-, hreplay, -⟩⟩ := h
    · rw [hreplay]
      exact .kept (hnotReceive hpoll hexec)
    · rw [hreplay]
      exact .expired rfl (hnotReceive hpoll hexec)
  | _ => exact absurd rfl hcall

/-- A call has Core execute at most one request. -/
theorem executions_step (setup : Setup) (s : APRSAdapter) (call : Call) :
    (step setup s call).executions = s.executions ∨
      ∃ x, (step setup s call).executions = s.executions ++ [x] := by
  by_cases hcall : call.isInbound = false
  · exact .inl (congrArg Inbound.executions (step_inbound hcall s))
  cases call with
  | receive peer body now =>
    have h : (receive setup peer body now).Yields s _ := receive_received s
    rw [Yields, ← step_receive] at h
    generalize ((receive setup peer body now).run s).1 = outcome at h
    change (step setup s (.receive peer body now)).inbound.executions = _ ∨ ∃ _,
      (step setup s (.receive peer body now)).inbound.executions = _
    generalize (step setup s (.receive peer body now)).inbound = i at h
    have hhandled : ∀ {key : TransactionKey} {frame : Bytes} {handled : Py Disposition}
        {i₀ i' : Inbound}, Handled setup key frame now i₀ handled i' →
        i₀.executions = s.executions →
        i'.executions = s.executions ∨ ∃ x, i'.executions = s.executions ++ [x] := by
      intro key frame handled i₀ i' heffect h₀
      cases heffect with
      | refused => exact .inl h₀
      | notRequest => exact .inl h₀
      | failed => exact .inr ⟨_, congrArg (· ++ _) h₀⟩
      | completed => exact .inr ⟨_, congrArg (· ++ _) h₀⟩
    cases h with
    | complete _ _ _ effect again =>
      have hsame := hhandled effect rfl
      rcases again with rfl | rfl
      · exact hsame
      · exact hsame
    | raised _ _ _ effect again =>
      have hsame := hhandled effect rfl
      rcases again with rfl | rfl
      · exact hsame
      · exact hsame
    | _ => exact .inl rfl
  | poll now =>
    have h : (pollEmissions setup now).Yields s _ := pollEmissions_inbound s
    rw [Yields, ← step_poll] at h
    exact .inl h.1
  | _ => exact absurd rfl hcall

/-- How to see what a call had Core execute: the history has one more entry. -/
theorem executed_of_history {responses : List Bytes}
    (h : ((step setup s call).executions.drop s.executions.length).map (fun x =>
      (x.key, x.outcome)) =
      [(key, .ok responses)]) :
    ∃ x, (step setup s call).executions = s.executions ++ [x] ∧ x.key = key ∧
      x.outcome = .ok responses := by
  rcases executions_step setup s call with hsame | ⟨x, hexec⟩
  · rw [hsame, List.drop_length] at h
    cases h
  · rw [hexec, List.drop_left] at h
    obtain ⟨hkey, houtcome⟩ := Prod.mk.inj (List.head_eq_of_cons_eq h)
    exact ⟨x, hexec, hkey, houtcome⟩

theorem completes_of_history (responses : List Bytes)
    (h : ((step setup s call).executions.drop s.executions.length).map (fun x =>
      (x.key, x.outcome)) =
      [(key, .ok responses)]) : Completes setup key s call := by
  obtain ⟨x, hexec, hkey, houtcome⟩ := executed_of_history h
  exact ⟨x, responses, hexec, hkey, houtcome⟩

/-- Core executes only what is not in the replay cache. -/
theorem executes_miss (h : Executes setup key s call) :
    ∃ now, call.time = some now ∧ s.inbound.cached setup key now = none := by
  obtain ⟨x, hexec, hkey⟩ := h
  have hchanged : (step setup s call).executions ≠ s.executions := fun h =>
    List.cons_ne_nil x [] (List.append_right_eq_self.mp (hexec.symm.trans h))
  by_cases hcall : call.isInbound = false
  · exact absurd (congrArg Inbound.executions (step_inbound hcall s)) hchanged
  cases call with
  | receive peer body now =>
    have h : (receive setup peer body now).Yields s _ := receive_received s
    rw [Yields, ← step_receive] at h
    generalize ((receive setup peer body now).run s).1 = outcome at h
    generalize hi : (step setup s (.receive peer body now)).inbound = i at h
    have hexec' : i.executions = s.executions ++ [x] := hi ▸ hexec
    have hchanged' : i.executions ≠ s.executions := hi ▸ hchanged
    -- Only an execution changes the history.
    have hhandled : ∀ {key' : TransactionKey} {frame : Bytes} {handled : Py Disposition}
        {i₀ i' : Inbound}, Handled setup key' frame now i₀ handled i' →
        i₀.executions = s.executions → i.executions = i'.executions → key' = key := by
      intro key' frame handled i₀ i' heffect h₀ h'
      have hnew : ∀ y : Execution, i.executions = s.executions ++ [y] → y.key = key' →
          key' = key := by
        intro y hy hkey'
        obtain rfl : x = y :=
          List.head_eq_of_cons_eq (List.append_cancel_left (hexec'.symm.trans hy))
        exact hkey'.symm.trans hkey
      cases heffect with
      | refused => exact absurd (h'.trans h₀) hchanged'
      | notRequest => exact absurd (h'.trans h₀) hchanged'
      | @failed y _ _ key_eq => exact hnew y (h'.trans (congrArg (· ++ [y]) h₀)) key_eq
      | @completed y _ _ _ key_eq => exact hnew y (h'.trans (congrArg (· ++ [y]) h₀)) key_eq
    cases h with
    | noFragment => exact absurd rfl hchanged'
    | replayed => exact absurd rfl hchanged'
    | collected => exact absurd rfl hchanged'
    | rejected => exact absurd rfl hchanged'
    | crashed => exact absurd rfl hchanged'
    | complete parsed miss _ effect again =>
      refine ⟨now, rfl, ?_⟩
      rcases again with rfl | rfl
      · exact hhandled effect rfl rfl ▸ miss
      · exact hhandled effect rfl rfl ▸ miss
    | raised parsed miss _ effect again =>
      refine ⟨now, rfl, ?_⟩
      rcases again with rfl | rfl
      · exact hhandled effect rfl rfl ▸ miss
      · exact hhandled effect rfl rfl ▸ miss
  | poll now =>
    have h : (pollEmissions setup now).Yields s _ := pollEmissions_inbound s
    rw [Yields, ← step_poll] at h
    exact absurd h.1 hchanged
  | _ => exact absurd rfl hcall

/-- A replay does not reach the core. -/
theorem replays_keepsCore (h : Replays setup key s call) : (step setup s call).core = s.core := by
  obtain ⟨peer, body, now, fragment, rfl, parsed, rfl, hit⟩ := h
  rw [step_receive, receive, parsed]
  show ((onReplay (ReplayCache.get setup.config.replay (peer, fragment.transactionId) now) >>=
    _).run s).2.core = _
  cases hfound : (ReplayCache.get setup.config.replay (peer, fragment.transactionId) now s.replay).1
    with
  | none => exact absurd hfound hit
  | some replay =>
    rw [run_bind_of_ok (a := some replay) (Prod.ext (congrArg Except.ok hfound) rfl)]
    have hkeeps : (receiveReplayed setup (peer, fragment.transactionId) now).Moves
        (Keeps APRSAdapter.core) :=
      Moves.bind (Moves.modify fun _ => rfl) fun _ =>
        Moves.bind acknowledgeRequest_keepsCore fun _ => Moves.pure _
    exact hkeeps _

/-! ### The messages of Core -/

/-- The executions, one after the other, lead from one table of messages to another. -/
def LeadsTo : OrderedDict (Str × ℕ) MessageRow → List Execution →
    OrderedDict (Str × ℕ) MessageRow → Prop
  | messages, [], messages' => messages' = messages
  | messages, x :: executed, messages' =>
    x.before.messages = messages ∧ LeadsTo x.after.messages executed messages'

theorem LeadsTo.append {messages messages' messages'' : OrderedDict (Str × ℕ) MessageRow}
    {executed later : List Execution} (h : LeadsTo messages executed messages')
    (h' : LeadsTo messages' later messages'') :
    LeadsTo messages (executed ++ later) messages'' := by
  induction executed generalizing messages with
  | nil =>
    obtain rfl : messages' = messages := h
    exact h'
  | cons x executed ih => exact ⟨h.1, ih h.2⟩

/-- Nothing but the executions that were added has changed the messages of Core. -/
def Linked (s s' : APRSAdapter) : Prop :=
  ∃ executed, s'.executions = s.executions ++ executed ∧
    LeadsTo s.core.messages executed s'.core.messages

theorem Linked.of_eq {s s' : APRSAdapter} (hexecutions : s'.executions = s.executions)
    (hmessages : s'.core.messages = s.core.messages) : Linked s s' :=
  ⟨[], by rw [hexecutions, List.append_nil], hmessages⟩

instance : IsPreorder APRSAdapter Linked where
  refl _ := .of_eq rfl rfl
  trans _ _ _ h h' := by
    obtain ⟨executed, hexecutions, hmessages⟩ := h
    obtain ⟨later, hexecutions', hmessages'⟩ := h'
    refine ⟨executed ++ later, ?_, hmessages.append hmessages'⟩
    rw [hexecutions', hexecutions, List.append_assoc]

theorem KeepsInbound.linked {α : Type} {m : Adapter α} (h : KeepsInbound m)
    (h' : KeepsMessages m) : m.Moves Linked :=
  fun s => .of_eq (congrArg Inbound.executions (h s)) (h' s)

section Linking

variable {frame : Bytes} {callsign : Str} {now : ℚ}

/-- `handle_frame` is called with the database of Core, and leaves it as it says. -/
theorem executeFrame_linked :
    (executeFrame setup key callsign frame).Moves Linked := by
  intro s
  have hkeeps : KeepsInbound (handleFrame (dispatchRouted setup) callsign frame) :=
    handleFrame_moves (fun _ _ => (dispatchRouted_keepsOuter _ _).inbound) callsign frame
  have hexecutions : ((handleFrame (dispatchRouted setup) callsign frame).run s).2.executions =
      s.executions := congrArg Inbound.executions (hkeeps s)
  exact ⟨[_], congrArg (· ++ [_]) hexecutions, rfl, rfl⟩

theorem confirmInbound_linked (p : Prop) [Decidable p] {peer : Str} (messageId : Option Str)
    (accepted : Bool) :
    (Method.when p (confirmInbound setup peer messageId accepted)).Moves Linked :=
  KeepsInbound.linked (Moves.when (confirmInbound_keepsInbound _ _))
    (Moves.when (confirmInbound_keepsMessages _ _))

theorem completeRequest_linked (messageId : Option Str) :
    (completeRequest setup key messageId frame now).Moves Linked := by
  refine Moves.bind (Moves.ofExcept _) fun request => Moves.ite ?_ ?_
  · exact Moves.bind (confirmInbound_linked _ _ _) fun _ => Moves.pure _
  · refine Moves.bind (confirmInbound_linked _ _ _) fun _ => ?_
    refine Moves.bind (Moves.ofExcept _) fun callsign => ?_
    refine Moves.bind ((reconcileRequest_keepsOuter _ _).inbound.linked
      (reconcileRequest_keepsMessages _ _)) fun _ => ?_
    refine Moves.bind executeFrame_linked fun responses s => ?_
    exact .of_eq (finishRequest_keepsExecutions messageId callsign request responses s)
      (finishRequest_keepsMessages messageId callsign request responses s)

theorem receiveFragment_linked {peer : Str} (messageId : Option Str) (fragment : APRSFragment) :
    (receiveFragment setup peer messageId fragment now).Moves Linked := by
  refine Moves.bind (fun _ => .of_eq rfl rfl) fun result => ?_
  rcases result with e | frame | frame
  · exact Moves.ite (Moves.bind (confirmInbound_linked _ _ _) fun _ => Moves.pure _)
      (Moves.raise _)
  · exact Moves.bind (confirmInbound_linked _ _ _) fun _ => Moves.pure _
  · refine Moves.bind (fun _ => .of_eq rfl rfl) fun cached => ?_
    cases cached with
    | none => exact completeRequest_linked _
    | some cached =>
      exact (replayRequest_keepsInbound _ _).linked (replayRequest_keepsMessages _ _)

/-- A fragment changes the messages of Core by what Core executes for it. -/
theorem receive_linked {peer body : Str} {fragment : APRSFragment}
    (parsed : parsePacket peer body = .ok (peer, fragment)) :
    (receive setup peer body now).Moves Linked := by
  have hack : ∀ {key : TransactionKey}, (acknowledgeRequest setup key now).Moves Linked := by
    intro key s
    have hinbound : (acknowledgeRequest setup key now).Yields s _ := acknowledgeRequest_inbound s
    refine .of_eq ?_ (congrArg CoreState.messages (acknowledgeRequest_keepsCore s))
    rcases hinbound with h | h
    · exact congrArg Inbound.executions h
    · exact congrArg Inbound.executions h
  rw [receive]
  simp only [parsed]
  refine Moves.bind (fun _ => .of_eq rfl rfl) fun found => ?_
  cases found with
  | some replay =>
    refine Moves.bind (Moves.modify fun _ => .of_eq rfl rfl) fun _ => ?_
    exact Moves.bind hack fun _ => Moves.pure _
  | none =>
    dsimp only
    rw [receiveBurst_of_parsed parsed, receiveBurstFragment, receiveCommit_of_parsed parsed]
    refine Moves.bind (Moves.modify fun _ => .of_eq rfl rfl) fun _ => ?_
    refine Moves.bind (receiveFragment_linked _ _) fun _ => Moves.bind (Moves.when hack) fun _ => ?_
    exact Moves.bind (Moves.when (Moves.modify fun _ => .of_eq rfl rfl)) fun _ => Moves.pure _

/-- The messages before and after an execution are those of Core before and after the call. -/
theorem messages_of_execution {x : Execution}
    (h : (step setup s call).executions = s.executions ++ [x]) :
    x.before.messages = s.core.messages ∧
      (step setup s call).core.messages = x.after.messages := by
  have hchanged : (step setup s call).executions ≠ s.executions := fun hsame =>
    List.cons_ne_nil x [] (List.append_right_eq_self.mp (h.symm.trans hsame))
  by_cases hcall : call.isInbound = false
  · exact absurd (congrArg Inbound.executions (step_inbound hcall s)) hchanged
  cases call with
  | receive peer body now =>
    by_cases hparse : ∃ result, parsePacket peer body = .ok result
    · obtain ⟨⟨peer', fragment⟩, parsed⟩ := hparse
      obtain rfl := (parsePacket_eq_ok parsed).1
      rw [step_receive] at h ⊢
      have hlinked : (receive setup peer' body now).Moves Linked := receive_linked parsed
      obtain ⟨executed, hexecuted, hmessages⟩ := hlinked s
      obtain rfl : executed = [x] := List.append_cancel_left (hexecuted.symm.trans h)
      exact hmessages
    · rw [not_exists] at hparse
      rw [step_receive] at hchanged
      exact absurd (congrArg Inbound.executions (receive_unparsed hparse s)) hchanged
  | poll now =>
    have hpoll : (pollEmissions setup now).Yields s _ := pollEmissions_inbound s
    rw [Yields, ← step_poll] at hpoll
    exact absurd hpoll.1 hchanged
  | _ => exact absurd rfl hcall

end Linking

/-! ### Between two executions -/

section Runs

variable (setup : Setup) (core : CoreState) (calls : List Call) (key : TransactionKey)

/-- The lifetime of a replay entry passes between two calls. -/
def Expires (i j : ℕ) : Prop := ∃ now now',
  AtCall setup core calls i (fun _ call => call.time = some now) ∧
  AtCall setup core calls j (fun _ call => call.time = some now') ∧
  now + setup.config.replayTtl ≤ now'

/-- The transaction is used at call `k`, between `i` and `j`, and not again until call `e`; and
enough other transactions are used in the meantime to make it give way. -/
def CrowdedOut (i j : ℕ) : Prop := ∃ k e, i ≤ k ∧ k < e ∧ e < j ∧
  AtCall setup core calls k (Uses setup key) ∧
  (∀ n, k < n → n ≤ e → ¬AtCall setup core calls n (Uses setup key)) ∧
  ∃ K : Finset TransactionKey, ReplayCache.Crowded setup.config.replay key K ∧
    ∀ key' ∈ K, ∃ n, k < n ∧ n ≤ e ∧ AtCall setup core calls n (Uses setup key')

/-- The transaction is in the cache, not older than `since`; it was used last at call `k`, and
everything younger was used after that. -/
def RemembersAt (since : ℚ) (i m : ℕ) : Prop := ∃ k, i ≤ k ∧ k < m ∧
  AtCall setup core calls k (Uses setup key) ∧
  (∀ n, k < n → n < m → ¬AtCall setup core calls n (Uses setup key)) ∧
  ∃ K : Finset TransactionKey,
    ReplayCache.Remembers (runState setup core calls m).replay key since K ∧
    ∀ key' ∈ K, ∃ n, k < n ∧ n < m ∧ AtCall setup core calls n (Uses setup key')

variable {setup core calls key}

theorem runState_succ {m : ℕ} (hm : m < calls.length) :
    runState setup core calls (m + 1) = step setup (runState setup core calls m) calls[m] :=
  stateAt_succ hm

theorem atCall_iff {m : ℕ} (hm : m < calls.length) {P : APRSAdapter → Call → Prop} :
    AtCall setup core calls m P ↔ P (runState setup core calls m) calls[m] :=
  ⟨fun h => h.2, fun h => ⟨hm, h⟩⟩

/-- What one call makes of a transaction that is in the cache. -/
theorem RemembersAt.succ {since : ℚ} {i m : ℕ} (h : RemembersAt setup core calls key since i m)
    (hm : m < calls.length)
    (hfresh : ∀ now, calls[m].time = some now → now < since + setup.config.replayTtl) :
    RemembersAt setup core calls key since i (m + 1) ∨
      CrowdedOut setup core calls key i (m + 1) := by
  obtain ⟨k, hik, hkm, hused, hunused, K, hremembers, hK⟩ := h
  have hlater : ∀ key' ∈ K, ∃ n, k < n ∧ n < m + 1 ∧ AtCall setup core calls n (Uses setup key') :=
    fun key' hkey' => (hK key' hkey').imp fun n hn => ⟨hn.1, Nat.lt_succ_of_lt hn.2.1, hn.2.2⟩
  have hquiet : ¬Uses setup key (runState setup core calls m) calls[m] →
      ∀ n, k < n → n < m + 1 → ¬AtCall setup core calls n (Uses setup key) := by
    intro hnot n hkn hn
    rcases Nat.lt_succ_iff_lt_or_eq.mp hn with hn | rfl
    · exact hunused n hkn hn
    · rwa [atCall_iff hm]
  have hinsert : ∀ {key' : TransactionKey}, Uses setup key' (runState setup core calls m) calls[m] →
      ∀ key'' ∈ insert key' K, ∃ n, k < n ∧ n < m + 1 ∧
        AtCall setup core calls n (Uses setup key'') := by
    intro key' hkey' key'' hmem
    rcases Finset.mem_insert.mp hmem with rfl | hmem
    · exact ⟨m, hkm, Nat.lt_succ_self m, (atCall_iff hm).mpr hkey'⟩
    · exact hlater key'' hmem
  have hcache := cacheEffect setup (runState setup core calls m) calls[m]
  rw [← runState_succ hm] at hcache
  generalize hentries : (runState setup core calls (m + 1)).replay = entries at hcache
  cases hcache with
  | kept unused =>
    exact .inl ⟨k, hik, Nat.lt_succ_of_lt hkm, hused, hquiet (unused key), K,
      hentries.symm ▸ hremembers, hlater⟩
  | expired time unused =>
    exact .inl ⟨k, hik, Nat.lt_succ_of_lt hkm, hused, hquiet (unused key), K,
      hentries.symm ▸ hremembers.expire _ (hfresh _ time), hlater⟩
  | @lookedUp now key' time uses _ =>
    by_cases hkey : key' = key
    · -- The transaction itself: now it is the youngest one.
      subst hkey
      obtain ⟨hhit, hself⟩ := hremembers.get_self setup.config.replay (hfresh _ time)
      refine .inl ⟨m, Nat.le_trans hik hkm.le, Nat.lt_succ_self m,
        (atCall_iff hm).mpr ((uses key').mpr ⟨rfl, hhit⟩), fun n hmn hn => ?_, ∅,
        hentries.symm ▸ hself, fun _ h => absurd h (Finset.notMem_empty _)⟩
      exact absurd hn (Nat.not_lt.mpr hmn)
    · have hnot : ¬Uses setup key (runState setup core calls m) calls[m] :=
        fun h => hkey ((uses key).mp h).1.symm
      obtain ⟨hinserted, hmissed⟩ := hremembers.get setup.config.replay
        (hfresh _ time) hkey
      by_cases hmiss : (ReplayCache.get setup.config.replay key' now
          (runState setup core calls m).replay).1 = none
      · exact .inl ⟨k, hik, Nat.lt_succ_of_lt hkm, hused, hquiet hnot, K,
          hentries.symm ▸ hmissed hmiss, hlater⟩
      · exact .inl ⟨k, hik, Nat.lt_succ_of_lt hkm, hused, hquiet hnot, insert key' K,
          hentries.symm ▸ hinserted, hinsert ((uses key').mpr ⟨rfl, hmiss⟩)⟩
  | @completed now key' value entries₁ entries₂ time uses created miss looked again =>
    have hkey : key' ≠ key := by
      rintro rfl
      exact (hremembers.get_self setup.config.replay (hfresh _ time)).1 miss
    have hnot : ¬Uses setup key (runState setup core calls m) calls[m] :=
      fun h => hkey ((uses key).mp h).symm
    have huses := (uses key').mpr rfl
    have hmissed := (hremembers.get setup.config.replay (hfresh _ time) hkey).2 miss
    rcases hmissed.put setup.config.replay hkey value with hput | hcrowded
    · rw [← looked] at hput
      refine .inl ⟨k, hik, Nat.lt_succ_of_lt hkm, hused, hquiet hnot, insert key' K,
        hentries.symm ▸ ?_, hinsert huses⟩
      rcases again with rfl | rfl
      · exact hput
      · have h := (hput.get setup.config.replay (hfresh _ time) hkey).1
        rwa [Finset.insert_idem] at h
    · -- Its last use is too long ago.
      refine .inr ⟨k, m, hik, hkm, Nat.lt_succ_self m, hused,
        fun n hkn hn => hquiet hnot n hkn (Nat.lt_succ_of_le hn), insert key' K, hcrowded,
        fun key'' hmem => ?_⟩
      obtain ⟨n, hkn, hn, huse⟩ := hinsert huses key'' hmem
      exact ⟨n, hkn, Nat.le_of_lt_succ hn, huse⟩

/-- A request that completed stays in the cache until it expires or is crowded out. -/
theorem remembersAt_or_crowdedOut {now : ℚ} {i : ℕ}
    (hi : AtCall setup core calls i fun s call => Completes setup key s call ∧ call.time = some now)
    {j : ℕ} (hij : i < j) (hj : j ≤ calls.length)
    (hfresh : ∀ m (hm : m < calls.length), i < m → m < j → ∀ now', calls[m].time = some now' →
      now' < now + setup.config.replayTtl) :
    RemembersAt setup core calls key now i j ∨ CrowdedOut setup core calls key i j := by
  induction j, hij using Nat.le_induction with
  | base =>
    obtain ⟨hlt, hcompletes, htime⟩ := hi
    refine .inl ⟨i, le_rfl, Nat.lt_succ_self i, ⟨hlt, .inl hcompletes⟩,
      fun n hin hn => absurd hn (Nat.not_lt.mpr hin), ∅, ?_, fun _ h =>
        absurd h (Finset.notMem_empty _)⟩
    have hcache := cacheEffect setup (runState setup core calls i) calls[i]
    rw [← runState_succ hlt] at hcache
    generalize (runState setup core calls (i + 1)).replay = entries at hcache
    cases hcache with
    | kept unused => exact absurd (.inl hcompletes) (unused key)
    | expired _ unused => exact absurd (.inl hcompletes) (unused key)
    | lookedUp _ _ incomplete => exact absurd hcompletes (incomplete key)
    | @completed now' key' value entries₁ _ time uses created _ looked again =>
      obtain rfl : key = key' := (uses key).mp (.inl hcompletes)
      obtain rfl : now' = now := Option.some.inj (time.symm.trans htime)
      have hput := ReplayCache.put_self setup.config.replay key value
        (ReplayCache.get setup.config.replay key now' (runState setup core calls i).replay).2
      rw [← looked, created] at hput
      rcases again with rfl | rfl
      · exact hput
      · exact (hput.get_self setup.config.replay
          (lt_add_of_pos_right now' setup.config.replayTtl_pos)).2
  | succ m him ih =>
    rcases ih (Nat.le_of_succ_le hj) fun n hn hin hnm =>
      hfresh n hn hin (Nat.lt_succ_of_lt hnm) with
      h | h
    · exact h.succ hj (hfresh m hj him (Nat.lt_succ_self m))
    · obtain ⟨k, e, hik, hke, hem, hrest⟩ := h
      exact .inr ⟨k, e, hik, hke, Nat.lt_succ_of_lt hem, hrest⟩

/-- Between two executions of one transaction, its entry expires or is crowded out. -/
theorem expires_or_crowdedOut (hclock : MonotoneClock calls) {i j : ℕ} (hij : i < j)
    (hi : AtCall setup core calls i (Completes setup key))
    (hj : AtCall setup core calls j (Executes setup key)) :
    Expires setup core calls i j ∨ CrowdedOut setup core calls key i j := by
  obtain ⟨hilt, hcompletes⟩ := hi
  obtain ⟨hjlt, hexecutes⟩ := hj
  obtain ⟨now, htime, -⟩ := executes_miss hcompletes.executes
  obtain ⟨now', htime', hmiss⟩ := executes_miss hexecutes
  have hi' : AtCall setup core calls i fun s call => Completes setup key s call ∧
      call.time = some now := ⟨hilt, hcompletes, htime⟩
  by_cases hexpired : now + setup.config.replayTtl ≤ now'
  · exact .inl ⟨now, now', ⟨hilt, htime⟩, ⟨hjlt, htime'⟩, hexpired⟩
  · rw [not_le] at hexpired
    -- Every call in between comes before the second execution.
    have hfresh : ∀ m (hm : m < calls.length), i < m → m < j → ∀ now₁,
        calls[m].time = some now₁ → now₁ < now + setup.config.replayTtl :=
      fun m hm _ hmj now₁ h => lt_of_le_of_lt (hclock.le hmj hjlt h htime') hexpired
    rcases remembersAt_or_crowdedOut hi' hij hjlt.le hfresh with h | h
    · obtain ⟨_, -, -, -, -, K, hremembers, -⟩ := h
      exact absurd hmiss (hremembers.get_self setup.config.replay hexpired).1
    · exact .inr h

end Runs

/-- **At most one execution.** In every run with a clock that never goes backwards: when Core
executes a transaction that it has already completed, its entry is no longer in the replay cache,
because its lifetime has passed or because it was crowded out since its last use. An execution that
is answered with `STORED` has added exactly the message of its request to those that Core had before
the call, and a call that replays a result leaves the core as it is. -/
theorem executesAtMostOnce (setup : Setup) (core : CoreState) (calls : List Call)
    (hclock : MonotoneClock calls) (key : TransactionKey) :
    (∀ i j, i < j → AtCall setup core calls i (Completes setup key) →
      AtCall setup core calls j (Executes setup key) →
        (∃ now, AtCall setup core calls j fun s call => call.time = some now ∧
          s.inbound.cached setup key now = none) ∧
        (Expires setup core calls i j ∨ CrowdedOut setup core calls key i j)) ∧
    (∀ i ≤ calls.length, ∀ x ∈ (runState setup core calls i).executions, ∀ data,
      x.outcome = .ok [data] → decodeFrame data = .ok .stored →
        x.Stores ∧ ∃ row, x.after.messages.entries = x.before.messages.entries ++ [row]) ∧
    (∀ i < calls.length, ∀ x, (runState setup core calls (i + 1)).executions =
      (runState setup core calls i).executions ++ [x] →
        x.before.messages = (runState setup core calls i).core.messages ∧
        (runState setup core calls (i + 1)).core.messages = x.after.messages) ∧
    ∀ i, AtCall setup core calls i (Replays setup key) →
      (runState setup core calls (i + 1)).core = (runState setup core calls i).core := by
  refine ⟨fun i j hij hi hj => ⟨?_, expires_or_crowdedOut hclock hij hi hj⟩,
    fun i hi x hx data houtcome hdata => ?_, fun i hi x hx => ?_, fun i hi => ?_⟩
  · obtain ⟨hjlt, hexecutes⟩ := hj
    obtain ⟨now, htime, hmiss⟩ := executes_miss hexecutes
    exact ⟨now, hjlt, htime, hmiss⟩
  · have hstores := ((runState_recorded core calls i hi).genuine x hx).stores houtcome hdata
    exact ⟨hstores, hstores.entries⟩
  · rw [runState_succ hi] at hx ⊢
    exact messages_of_execution hx
  · obtain ⟨hlt, hreplays⟩ := hi
    rw [runState_succ hlt]
    exact replays_keepsCore hreplays

section Again

/-- A request for the capabilities, and the same one ten minutes later. -/
def capabilitiesAgain : List Call :=
  [.receive (str "EA1ABC-7") (str "Q2&!=Y!!!") 0, .receive (str "EA1ABC-7") (str "Q2&!=Y!!!") 601]

/-- The answer to it. -/
def capabilitiesResponse : List Bytes := [[1, 70, 0, 5, 1, 0, 0, 0, 15]]

/-- It is executed again: its entry has expired. -/
theorem executesAtMostOnce_again :
    let setup : Setup := { router := true, stores := ⟨true, true⟩ }
    let core : CoreState := ⟨.fresh, 1700000000, .empty⟩
    let key : TransactionKey := (str "EA1ABC-7", str "005")
    MonotoneClock capabilitiesAgain ∧
    AtCall setup core capabilitiesAgain 0 (Completes setup key) ∧
    AtCall setup core capabilitiesAgain 1 (Executes setup key) ∧
    (Expires setup core capabilitiesAgain 0 1 ∨
      CrowdedOut setup core capabilitiesAgain key 0 1) := by
  intro setup core key
  have hclock : MonotoneClock capabilitiesAgain := by decide +kernel
  have hfirst : AtCall setup core capabilitiesAgain 0 (Completes setup key) :=
    ⟨by decide, completes_of_history capabilitiesResponse (by decide +kernel)⟩
  have hsecond : AtCall setup core capabilitiesAgain 1 (Executes setup key) :=
    ⟨by decide, (completes_of_history capabilitiesResponse (by decide +kernel)).executes⟩
  exact ⟨hclock, hfirst, hsecond,
    ((executesAtMostOnce setup core capabilitiesAgain hclock key).1 0 1 Nat.one_pos hfirst
      hsecond).2⟩

end Again

end OpenQSP
