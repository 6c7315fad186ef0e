import OpenQSP.Aprs.Caching
import OpenQSP.Aprs.Inbound

/-!
# Executed requests and the replay cache

Every request in the replay cache was executed by Core, and the responses in the cache are what
Core returned then. The history of executions only grows.

## Main definitions

* `Inbound.Recorded` — the cache holds results of executions

## Main results

* `pollEmissions_inbound`, `step_inbound` — what the calls other than `receive` do to the inbound
  half
* `runState_recorded` — the invariant holds in every run
-/

namespace OpenQSP

open APRSAdapter Method

variable {setup : Setup} {now : ℚ}

/-! ### Polling -/

theorem pollProgress_keeps (e : TransactionKey × RxProgress) :
    (pollProgress setup now e).Moves
      (Keeps fun s => (s.reassembly, s.replay, s.executions)) := by
  refine Moves.ite (Moves.pure _) (Moves.ite ?_ ?_)
  · exact Moves.bind (Moves.modify fun _ => rfl) fun _ => Moves.pure _
  · exact Moves.bind (Moves.ofExcept _) fun _ =>
      Moves.bind (Moves.modify fun _ => rfl) fun _ => Moves.pure _

theorem pollActive_keepsInbound (e : Str × BurstTx) : KeepsInbound (pollActive setup now e) := by
  have hfail : KeepsInbound (do failOutbound setup e.1 e.2; return ([] : List Emission)) :=
    Moves.bind (failOutbound_keepsOuter _).inbound fun _ => Moves.pure _
  rw [pollActive]
  split
  · exact Moves.pure _
  · exact hfail
  · refine Moves.ite hfail (Moves.get_bind fun s => Moves.ite ?_ ?_)
    · exact Moves.bind (Moves.modify fun _ => rfl) fun _ => Moves.pure _
    · exact Moves.bind (Moves.modify fun _ => rfl) fun _ => Moves.pure _

theorem pollQueued_keepsInbound (tx : BurstTx) : KeepsInbound (pollQueued setup now tx) := by
  refine Moves.get_bind fun s => Moves.ite (Moves.pure _) (Moves.ite (Moves.pure _) ?_)
  exact Moves.bind (Moves.modify fun _ => rfl) fun _ => Moves.pure _

/-- `poll` only lets entries of the caches expire. -/
theorem pollEmissions_inbound (s : APRSAdapter) :
    (pollEmissions setup now).Yields s fun outcome s' => s'.executions = s.executions ∧
      ((s'.reassembly = s.reassembly ∧ s'.replay = s.replay ∧ ∃ e, outcome = .error e) ∨
      (s'.reassembly = s.reassembly.expire setup.config.reassembly now ∧
        s'.replay = s.replay.expire setup.config.replay now ∧ ∃ es, outcome = .ok es)) := by
  have hkeep : ∀ {α : Type} {m : Adapter α}, KeepsInbound m →
      m.Moves (Keeps fun s => (s.reassembly, s.replay, s.executions)) := fun h =>
    h.mono fun _ _ h => congrArg (fun i : Inbound => (i.reassembly, i.replay, i.executions)) h
  have htake : takeImmediate.Moves (Keeps fun s => (s.reassembly, s.replay, s.executions)) :=
    Moves.get_bind fun _ => Moves.bind (Moves.modify fun _ => rfl) fun _ => Moves.pure _
  have hprogress : (pollAllProgress setup now).Moves
      (Keeps fun s => (s.reassembly, s.replay, s.executions)) :=
    Moves.get_bind fun _ => Moves.mapM fun _ _ => pollProgress_keeps _
  have hactive : KeepsInbound (pollAllActive setup now) :=
    Moves.get_bind fun _ => Moves.mapM fun e _ => pollActive_keepsInbound e
  have hqueued : KeepsInbound (pollAllQueued setup now) :=
    Moves.get_bind fun _ => Moves.mapM fun tx _ => pollQueued_keepsInbound tx
  have herror : ∀ e s', Keeps (fun s : APRSAdapter => (s.reassembly, s.replay, s.executions)) s s' →
      s'.executions = s.executions ∧
      ((s'.reassembly = s.reassembly ∧ s'.replay = s.replay ∧
        ∃ e', (.error e : Py (List Emission)) = .error e') ∨
      (s'.reassembly = s.reassembly.expire setup.config.reassembly now ∧
        s'.replay = s.replay.expire setup.config.replay now ∧
        ∃ es, (.error e : Py (List Emission)) = .ok es)) := by
    intro e s' h
    simp only [Keeps, Prod.mk.injEq] at h
    exact ⟨h.2.2, .inl ⟨h.1, h.2.1, e, rfl⟩⟩
  refine Yields.bind_of_moves htake (fun _ s₁ hs₁ => ?_) fun e s₁ hs₁ => herror e s₁ hs₁
  refine Yields.bind_of_moves hprogress (fun _ s₂ hs₂ => ?_)
    fun e s₂ hs₂ => herror e s₂ (hs₂.trans hs₁)
  refine Yields.bind_of_moves (hkeep hactive) (fun _ s₃ hs₃ => ?_)
    fun e s₃ hs₃ => herror e s₃ (hs₃.trans (hs₂.trans hs₁))
  refine Yields.bind_of_moves (hkeep hqueued) (fun _ s₄ hs₄ => ?_)
    fun e s₄ hs₄ => herror e s₄ (hs₄.trans (hs₃.trans (hs₂.trans hs₁)))
  have h := hs₄.trans (hs₃.trans (hs₂.trans hs₁))
  simp only [Prod.mk.injEq] at h
  refine ⟨h.2.2, .inr ⟨?_, ?_, _, rfl⟩⟩
  · exact congrArg (Reassembler.expire setup.config.reassembly now) h.1
  · exact congrArg (ReplayCache.expire setup.config.replay now) h.2.1

/-! ### Steps -/

theorem step_receive (s : APRSAdapter) (peer body : Str) :
    step setup s (.receive peer body now) = ((receive setup peer body now).run s).2 :=
  congrArg Prod.snd (run_bind_pure _ Response.disposition s)

theorem answer_receive (s : APRSAdapter) (peer body : Str) :
    answer setup s (.receive peer body now) =
      ((receive setup peer body now).run s).1.map Response.disposition :=
  congrArg Prod.fst (run_bind_pure _ Response.disposition s)

theorem step_poll (s : APRSAdapter) :
    step setup s (.poll now) = ((pollEmissions setup now).run s).2 :=
  congrArg Prod.snd (run_bind_pure _ Response.packets s)

theorem answer_poll (s : APRSAdapter) :
    answer setup s (.poll now) = ((pollEmissions setup now).run s).1.map Response.packets :=
  congrArg Prod.fst (run_bind_pure _ Response.packets s)

/-- Is this a call that works on the inbound half? -/
def Call.isInbound : Call → Bool
  | .receive .. | .poll _ => true
  | _ => false

/-- The other calls leave the inbound half alone. -/
theorem step_inbound {call : Call} (h : call.isInbound = false) (s : APRSAdapter) :
    (step setup s call).inbound = s.inbound := by
  have hkeeps : KeepsInbound (call.method setup) := by
    cases call with
    | receive => cases h
    | poll => cases h
    | queueFrame peer frame options =>
      exact Moves.bind (queueFrame_keepsOuter _ _).inbound fun _ => Moves.pure _
    | deliverMessage message endpoint =>
      exact Moves.bind (deliverMessage_keepsOuter _ _).inbound fun _ => Moves.pure _
    | connectionLost => exact Moves.bind connectionLost_keepsInbound fun _ => Moves.pure _
    | core change => exact Moves.bind (Moves.modify fun _ => rfl) fun _ => Moves.pure _
  exact hkeeps s

/-! ### The invariant -/

/-- Every execution is genuine, and the cache holds results of executions. -/
structure Inbound.Recorded (setup : Setup) (i : Inbound) : Prop where
  genuine : ∀ x ∈ i.executions, x.Genuine setup
  recorded : ∀ e ∈ i.replay.entries, ∃ x ∈ i.executions,
    x.key = e.1 ∧ x.frame = e.2.request ∧ x.outcome = .ok e.2.responses

namespace Inbound.Recorded

variable {key : TransactionKey} {i i' : Inbound}

/-- The progress and the assemblies do not matter, and entries may leave the cache. -/
theorem of_subset (h : i.Recorded setup) (hexec : i'.executions = i.executions)
    (hreplay : ∀ e ∈ i'.replay.entries, e ∈ i.replay.entries) : i'.Recorded setup := by
  constructor
  · rw [hexec]
    exact h.genuine
  · rw [hexec]
    exact fun e he => h.recorded e (hreplay e he)

theorem lookUp (h : i.Recorded setup) : (i.lookUp setup key now).Recorded setup :=
  h.of_subset rfl fun _ => ReplayCache.mem_of_get

theorem handled {frame : Bytes} {outcome : Py Disposition} (h : i.Recorded setup)
    (heffect : Handled setup key frame now i outcome i') : i'.Recorded setup := by
  cases heffect with
  | refused => exact h
  | notRequest => exact h
  | @failed x e genuine key_eq frame_eq outcome_eq =>
    constructor
    · intro y hy
      rcases List.mem_append.mp hy with hy | hy
      · exact h.genuine y hy
      · exact List.mem_singleton.mp hy ▸ genuine
    · intro e he
      obtain ⟨y, hy, hrec⟩ := h.recorded e he
      exact ⟨y, List.mem_append_left _ hy, hrec⟩
  | @completed x responses outcome genuine key_eq frame_eq outcome_eq returns =>
    constructor
    · intro y hy
      rcases List.mem_append.mp hy with hy | hy
      · exact h.genuine y hy
      · exact List.mem_singleton.mp hy ▸ genuine
    · intro e he
      rcases ReplayCache.mem_of_put he with rfl | ⟨he, -⟩
      · exact ⟨x, List.mem_append_right _ (List.mem_singleton_self x), key_eq, frame_eq, outcome_eq⟩
      · obtain ⟨y, hy, hrec⟩ := h.recorded e he
        exact ⟨y, List.mem_append_left _ hy, hrec⟩

theorem received {peer body : Str} {outcome : Py Disposition} (h : i.Recorded setup)
    (hreceived : Received setup peer body now i outcome i') : i'.Recorded setup := by
  have hnote : ∀ {key : TransactionKey} (fragment : APRSFragment) (reassembly : Reassembler),
      ({ (i.lookUp setup key now).note setup key fragment now with reassembly } : Inbound).Recorded
        setup := fun fragment reassembly => h.lookUp.of_subset rfl fun _ he => he
  cases hreceived with
  | noFragment => exact h
  | replayed => exact h.lookUp.of_subset rfl fun _ he => he
  | collected => exact hnote _ _
  | rejected => exact h.lookUp.of_subset rfl fun _ he => he
  | crashed => exact hnote _ _
  | complete _ _ _ effect again =>
    rcases again with rfl | rfl
    · exact ((hnote _ _).handled effect).of_subset rfl fun _ he => he
    · exact ((hnote _ _).handled effect).lookUp.of_subset rfl fun _ he => he
  | raised _ _ _ effect again =>
    rcases again with rfl | rfl
    · exact (hnote _ _).handled effect
    · exact ((hnote _ _).handled effect).lookUp

end Inbound.Recorded

theorem step_recorded {s : APRSAdapter} (h : s.inbound.Recorded setup) (call : Call) :
    (step setup s call).inbound.Recorded setup := by
  by_cases hcall : call.isInbound = false
  · rw [step_inbound hcall]
    exact h
  cases call with
  | receive peer body now =>
    rw [step_receive]
    exact h.received (receive_received s)
  | poll now =>
    rw [step_poll]
    obtain ⟨hexec, hcaches⟩ : Yields _ _ _ := pollEmissions_inbound s
    refine h.of_subset hexec fun e he => ?_
    change e ∈ ((pollEmissions setup now).run s).2.replay.entries at he
    rcases hcaches with ⟨-, hreplay, -⟩ | ⟨-, hreplay, -⟩
    · rwa [hreplay] at he
    · rw [hreplay] at he
      exact (ReplayCache.mem_expire.mp he).1
  | _ => exact absurd rfl hcall

/-- In every run the cache holds results of executions. -/
theorem runState_recorded (core : CoreState) (calls : List Call) :
    ∀ i ≤ calls.length, (runState setup core calls i).inbound.Recorded setup :=
  stateAt_invariant (I := fun (s : APRSAdapter) => s.inbound.Recorded setup)
    ⟨fun _ h => absurd h List.not_mem_nil, fun _ h => absurd h List.not_mem_nil⟩
    fun _ _ h => step_recorded h _

end OpenQSP
