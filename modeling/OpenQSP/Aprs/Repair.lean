import OpenQSP.Aprs.Discipline
import OpenQSP.Aprs.Dispositions

/-!
# Selective repair

A peer that misses fragments of the transaction that is being sent to it asks for them. From then on
that transaction is sent as these fragments only, at once or when its peer may be sent to again, and
again after every timeout, until the peer asks for others or the transaction ends.

A timeout of the whole transaction that had to wait is overwritten by the request; a request that
has to wait is put off as it is.

## Main definitions

* `BurstTx.Repeats`, `Outbound.Repairs` — what a request for fragments leaves
* `APRSAdapter.AsksFor` — a call that makes one

## Main results

* `pollEmissions_repairs`, `step_repairs` — one call
* **`selective_repair`**
-/

namespace OpenQSP

open APRSAdapter Method

/-! ### One transaction -/

theorem toFinset_sorted (indices : Finset ℕ) : (sorted indices).toFinset = indices :=
  Finset.ext fun _ => List.mem_toFinset.trans mem_sorted

theorem sorted_pairwise (indices : Finset ℕ) : (sorted indices).Pairwise (· < ·) :=
  List.pairwise_lt_range.filter _

/-- The transaction is sent as these fragments only. -/
structure BurstTx.Repeats (asked : Finset ℕ) (tx : BurstTx) : Prop where
  active : tx.repairActive = true
  indices : tx.repairIndices = some asked
  requested : tx.requested = none ∨ tx.requested = some asked

namespace BurstTx.Repeats

variable {tx : BurstTx} {asked : Finset ℕ} {now : ℚ}

theorem due (h : tx.Repeats asked) {indices : List ℕ} (hdue : tx.due now = .send indices) :
    indices = sorted asked := by
  rw [BurstTx.due] at hdue
  rcases h.requested with hnone | hsome
  · simp only [hnone, h.active, h.indices, if_true] at hdue
    split at hdue
    · split at hdue
      · cases hdue
      · exact (Due.send.inj hdue).symm
    · cases hdue
  · rw [hsome] at hdue
    exact (Due.send.inj hdue).symm

theorem retried (h : tx.Repeats asked) (deadline : ℚ) : (tx.retried deadline).Repeats asked :=
  ⟨h.active, h.indices, .inl rfl⟩

theorem deferred (h : tx.Repeats asked) {indices : List ℕ} (hdue : tx.due now = .send indices) :
    (tx.deferred now).Repeats asked := by
  refine ⟨h.active, h.indices, .inr ?_⟩
  show some (tx.due now).indices.toFinset = some asked
  rw [hdue]
  show some indices.toFinset = some asked
  rw [h.due hdue, toFinset_sorted]

theorem repaired (tx : BurstTx) (indices : Finset ℕ) :
    (tx.repaired indices).Repeats (tx.validMissing indices) := ⟨rfl, rfl, .inr rfl⟩

/-- The packets are exactly those of the fragments, in ascending order. -/
theorem packetsAt (h : tx.Repeats asked) :
    (tx.packetsAt (sorted asked)).map some = (sorted asked).map (tx.packets[·]?) := by
  have hlt : ∀ i ∈ sorted asked, i < tx.packets.length := fun i hi =>
    tx.length_packets ▸ tx.repairIndices_lt asked h.indices i (mem_sorted.mp hi)
  rw [BurstTx.packetsAt]
  generalize sorted asked = l at hlt
  induction l with
  | nil => rfl
  | cons i l ih =>
    have hi := List.getElem?_eq_getElem (hlt i List.mem_cons_self)
    rw [List.filterMap_cons_some hi, List.map_cons, List.map_cons, hi,
      ih fun j hj => hlt j (List.mem_cons_of_mem _ hj)]

end BurstTx.Repeats

/-! ### The outbound half -/

/-- The transaction of this number has been started, and is sent as these fragments only. -/
structure Outbound.Repairs (order : ℕ) (asked : Finset ℕ) (o : Outbound) : Prop where
  started : ∀ tx ∈ o.queue, tx.order ≠ order
  order_lt : order < o.nextOrder
  active : ∀ peer tx, o.active.get? peer = some tx → tx.order = order → tx.Repeats asked

section Calls

variable {setup : Setup} {order : ℕ} {asked : Finset ℕ} {now : ℚ} {peer : Str}

theorem Outbound.Change.repairs {o o' : Outbound} (h : Change setup o o')
    (hrepairs : o.Repairs order asked) :
    o'.Repairs order asked := by
  obtain ⟨hmove, hactive⟩ := h
  refine ⟨?_, ?_, fun peer tx htx => hrepairs.active peer tx (hactive peer tx htx)⟩
  · cases hmove with
    | drop => exact fun tx htx => hrepairs.started tx (List.mem_filter.mp htx).1
    | enqueue order_eq =>
      intro tx htx
      rcases List.mem_append.mp htx with htx | htx
      · exact hrepairs.started tx htx
      · obtain rfl := List.mem_singleton.mp htx
        exact order_eq.symm ▸ hrepairs.order_lt.ne'
    | _ => exact hrepairs.started
  · cases hmove with
    | enqueue => exact Nat.lt_succ_of_lt hrepairs.order_lt
    | _ => exact hrepairs.order_lt

theorem Changes.repairs {s s' : APRSAdapter} (h : Changes setup s s')
    (hrepairs : s.outbound.Repairs order asked) :
    s'.outbound.Repairs order asked := by
  rw [Changes] at h
  generalize s.outbound = o, s'.outbound = o' at *
  induction h with
  | refl => exact hrepairs
  | tail _ last ih => exact last.repairs ih

/-- One active transaction is replaced by one of the same number that repeats as well. -/
theorem Outbound.Repairs.set {o : Outbound} (h : o.Repairs order asked) {tx : BurstTx}
    (lastSend : OrderedDict Str ℚ)
    (hrepeats : tx.order = order → tx.Repeats asked) :
    ({ o with active := o.active.set peer tx, lastSend } : Outbound).Repairs order asked := by
  refine ⟨h.started, h.order_lt, fun peer' tx' htx' horder => ?_⟩
  by_cases hpeer : peer' = peer
  · subst hpeer
    obtain rfl := Option.some.inj ((OrderedDict.get?_set_self _ _ _).symm.trans htx')
    exact hrepeats horder
  · exact h.active peer' tx' ((OrderedDict.get?_set_of_ne hpeer).symm.trans htx') horder

/-- The bursts of the transaction consist of these fragments. -/
def SentAs (order : ℕ) (asked : Finset ℕ) (bursts : List Burst) : Prop :=
  ∀ b ∈ bursts, b.tx.order = order → b.packets.map some = (sorted asked).map (b.tx.packets[·]?)

theorem SentAs.nil : SentAs order asked [] := fun _ hb => absurd hb List.not_mem_nil

theorem SentAs.append {bursts bursts' : List Burst} (h : SentAs order asked bursts)
    (h' : SentAs order asked bursts') : SentAs order asked (bursts ++ bursts') :=
  fun b hb => (List.mem_append.mp hb).elim (h b) (h' b)

/-! ### Polling -/

theorem pollActive_repairs {s : APRSAdapter} {e : Str × BurstTx}
    (hactive : s.burstActive.get? e.1 = some e.2)
    (h : s.outbound.Repairs order asked) :
    (pollActive setup now e).Yields s fun outcome s' => s'.outbound.Repairs order asked ∧
      ∀ es, outcome = .ok es → SentAs order asked (burstsOf now es) := by
  have hfail : (do failOutbound setup e.1 e.2; return [] : Adapter (List Emission)).Yields s
      fun outcome s' => s'.outbound.Repairs order asked ∧
        ∀ es, outcome = .ok es → SentAs order asked (burstsOf now es) := by
    refine Yields.bind (failOutbound_changes hactive) (fun _ s' hs' =>
      ⟨hs'.1.repairs h, fun es hes => ?_⟩)
      fun x s' hs' => ⟨hs'.1.repairs h, nofun⟩
    obtain rfl : [] = es := Except.ok.inj hes
    exact .nil
  rw [pollActive]
  split
  · refine ⟨h, fun es hes => ?_⟩
    obtain rfl : [] = es := Except.ok.inj hes
    exact .nil
  · exact hfail
  · next indices hdue =>
    split
    · exact hfail
    refine Yields.get_bind ?_
    split
    · refine ⟨h.set s.lastSend fun horder => (h.active e.1 e.2 hactive horder).deferred hdue,
        fun es hes => ?_⟩
      obtain rfl : [] = es := Except.ok.inj hes
      exact .nil
    · refine ⟨h.set _ fun horder => (h.active e.1 e.2 hactive horder).retried _,
        fun es hes b hb horder => ?_⟩
      obtain rfl : [.frame e.2 (e.2.packetsAt indices)] = es := Except.ok.inj hes
      obtain rfl := List.mem_singleton.mp hb
      have hrepeats := h.active e.1 e.2 hactive horder
      show (e.2.packetsAt indices).map some = _
      rw [hrepeats.due hdue]
      exact hrepeats.packetsAt

theorem pollAllActive_repairs {s : APRSAdapter} (h : s.outbound.Repairs order asked) :
    (pollAllActive setup now).Yields s fun outcome s' => s'.outbound.Repairs order asked ∧
      ∀ as, outcome = .ok as → SentAs order asked (burstsOf now as.flatten) := by
  -- The entries that are left are still active.
  refine Yields.get_bind (Yields.mono (Yields.mapM
    (I := fun as l s₁ => s₁.outbound.Repairs order asked ∧
      SentAs order asked (burstsOf now as.flatten) ∧
      (∀ e ∈ l, s₁.burstActive.get? e.1 = some e.2) ∧ (l.map Prod.fst).Nodup)
    (E := fun _ s₁ => s₁.outbound.Repairs order asked) (fun as e l s₁ hI => ?_)
      s.burstActive.entries [] s ?_)
    fun outcome s' hs' => ?_)
  · obtain ⟨hrepairs, hsent, hactive, hnodup⟩ := hI
    have hget := hactive e List.mem_cons_self
    refine Yields.mono ((pollActive_repairs hget hrepairs).and (pollActive_yields hget))
      fun outcome s₂ hs₂ => ?_
    obtain ⟨⟨hrepairs₂, hsent₂⟩, hpolled⟩ := hs₂
    refine ⟨fun es hes => ⟨hrepairs₂, ?_, fun e' he' => ?_, (List.nodup_cons.mp hnodup).2⟩,
      fun _ _ => hrepairs₂⟩
    · rw [burstsOf_snoc]
      exact hsent.append (hsent₂ es hes)
    · have hne : e'.1 ≠ e.1 := fun heq =>
        (List.nodup_cons.mp hnodup).1 (heq ▸ List.mem_map_of_mem he')
      exact (hpolled.others e'.1 hne).trans (hactive e' (List.mem_cons_of_mem _ he'))
  · exact ⟨h, .nil, fun e he => OrderedDict.get?_eq_some_iff.mpr he, s.burstActive.nodup_keys⟩
  · cases outcome with
    | ok as => exact ⟨(hs'.1 as rfl).1, fun as' has' => Except.ok.inj has' ▸ (hs'.1 as rfl).2.1⟩
    | error e => exact ⟨hs'.2 e rfl, nofun⟩

/-- A transaction that is started is another one. -/
theorem pollAllQueued_repairs {s : APRSAdapter} (hnodup : s.burstQueue.Nodup)
    (h : s.outbound.Repairs order asked) :
    (pollAllQueued setup now).Yields s fun outcome s' => s'.outbound.Repairs order asked ∧
      ∀ as, outcome = .ok as → SentAs order asked (burstsOf now as.flatten) := by
  refine Yields.get_bind (Yields.mono (Yields.mapM
    (I := fun as l s₁ => s₁.outbound.Repairs order asked ∧
      SentAs order asked (burstsOf now as.flatten) ∧
      (∀ tx ∈ l, tx ∈ s₁.burstQueue) ∧ l.Nodup)
    (E := fun _ s₁ => s₁.outbound.Repairs order asked) (fun as tx l s₁ hI => ?_)
      (candidates s.burstQueue) [] s ?_)
    fun outcome s' hs' => ?_)
  · obtain ⟨hrepairs, hsent, hqueued, hnodup⟩ := hI
    have htx := hqueued tx List.mem_cons_self
    have hne := hrepairs.started tx htx
    refine Yields.mono (pollQueued_yields htx) fun outcome s₂ hs₂ => ?_
    rcases hs₂ with ⟨rfl, rfl, -⟩ | ⟨rfl, -, -, -, rfl⟩
    · refine ⟨fun es hes => ⟨hrepairs, ?_, fun tx' htx' =>
        hqueued tx' (List.mem_cons_of_mem _ htx'),
        (List.nodup_cons.mp hnodup).2⟩, fun _ _ => hrepairs⟩
      obtain rfl : [] = es := Except.ok.inj hes
      rw [burstsOf_snoc]
      exact hsent.append .nil
    · have hrepairs₂ : ({ s₁.outbound with
          active := s₁.burstActive.set tx.peer (tx.started (now + setup.config.ackTimeout))
          lastSend := s₁.lastSend.set tx.peer now } : Outbound).Repairs order asked :=
        hrepairs.set _ fun horder => absurd horder hne
      refine ⟨fun es hes => ⟨⟨fun tx' htx' => ?_, hrepairs₂.order_lt, hrepairs₂.active⟩, ?_,
        fun tx' htx' => ?_,
        (List.nodup_cons.mp hnodup).2⟩, nofun⟩
      · exact hrepairs.started tx' (List.mem_of_mem_erase htx')
      · obtain rfl : [.frame tx tx.packets] = es := Except.ok.inj hes
        rw [burstsOf_snoc]
        refine hsent.append fun b hb horder => ?_
        obtain rfl := List.mem_singleton.mp hb
        exact absurd horder hne
      · have hother : tx' ≠ tx := ne_of_mem_of_not_mem htx' (List.nodup_cons.mp hnodup).1
        exact (List.mem_erase_of_ne hother).mpr (hqueued tx' (List.mem_cons_of_mem _ htx'))
  · have hperm := candidates_perm s.burstQueue
    exact ⟨h, .nil, fun tx htx => hperm.mem_iff.mp htx, hperm.nodup_iff.mpr hnodup⟩
  · cases outcome with
    | ok as => exact ⟨(hs'.1 as rfl).1, fun as' has' => Except.ok.inj has' ▸ (hs'.1 as rfl).2.1⟩
    | error e => exact ⟨hs'.2 e rfl, nofun⟩

theorem pollEmissions_repairs {s : APRSAdapter} (hsound : s.outbound.Sound setup)
    (h : s.outbound.Repairs order asked) :
    (pollEmissions setup now).Yields s fun outcome s' => s'.outbound.Repairs order asked ∧
      ∀ es, outcome = .ok es → SentAs order asked (burstsOf now es) := by
  have htake : takeImmediate.Yields s fun outcome s' =>
      s'.outbound = s.outbound ∧ ∃ packets, outcome = .ok packets := ⟨rfl, _, rfl⟩
  refine Yields.bind htake (fun immediate s₁ hs₁ => ?_) fun _ _ ⟨_, _, h⟩ => nomatch h
  refine Yields.bind (pollAllProgress_yields s₁) (fun progress s₂ hs₂ => ?_) fun e s₂ hs₂ => ?_
  · have hout₂ : s₂.outbound = s.outbound := hs₂.1.trans hs₁.1
    refine Yields.bind ((pollAllActive_repairs (hout₂.symm ▸ h)).and (pollAllActive_yields s₂))
      (fun active s₃ hs₃ => ?_) fun e s₃ hs₃ => ⟨hs₃.1.1, nofun⟩
    obtain ⟨⟨hrepairs₃, hsent₃⟩, hqueue₃, -⟩ := hs₃
    have hnodup : s₃.burstQueue.Nodup := by
      rw [hqueue₃, show s₂.burstQueue = s.burstQueue from congrArg Outbound.queue hout₂]
      exact hsound.nodup_queue
    refine Yields.bind (pollAllQueued_repairs hnodup hrepairs₃) (fun queued s₄ hs₄ =>
      ⟨hs₄.1, fun es hes => ?_⟩)
      fun e s₄ hs₄ => ⟨hs₄.1, nofun⟩
    obtain rfl : _ = es := Except.ok.inj hes
    rw [burstsOf_append, burstsOf_append, burstsOf_append, burstsOf_controls, hs₂.2 progress rfl]
    exact (SentAs.nil.append (hsent₃ active rfl)).append (hs₄.2 queued rfl)
  · rw [show s₂.outbound = s.outbound from hs₂.1.trans hs₁.1]
    exact ⟨h, nofun⟩

/-! ### Controls -/

/-- A control never is a fragment; it goes to the active transaction of a valid address. -/
theorem receive_of_control {body : Str} {control : BurstControl}
    (hcontrol : parseBurstControl body = some control) :
    receive setup peer body now = pure .ignored ∨
      receive setup peer body now = receiveControl setup peer control := by
  rw [receive]
  rcases hparse : parsePacket peer body with e | ⟨peer', fragment⟩
  swap
  · have hfragment := (parsePacket_eq_ok hparse).2.2
    cases (parseBurstControl_of_fragment hfragment).symm.trans hcontrol
  · dsimp only
    rw [if_pos (isUnparsable_of_carriage (parsePacket_raises peer body e hparse)), receiveBurst]
    cases hpeer : validatePeer peer with
    | error e =>
      dsimp only
      exact .inl (if_pos (validatePeer_raises peer e hpeer))
    | ok peer' =>
      obtain rfl := validatePeer_eq_ok hpeer
      simp only [hcontrol, or_true]

/-- A control that names nothing is ignored. -/
theorem receiveControl_ignored {control : BurstControl} {s : APRSAdapter}
    (h : ∀ tx, s.burstActive.get? peer = some tx → ¬control.Names tx) :
    (receiveControl setup peer control).run s = (.ok .ignored, s) := by
  rw [receiveControl, run_get_bind]
  cases hactive : s.burstActive.get? peer with
  | none => rfl
  | some tx =>
    have hnot := h tx hactive
    cases control with
    | ack transactionId =>
      dsimp only
      rw [if_pos (show tx.transactionId ≠ transactionId from hnot)]
      rfl
    | missing transactionId indices =>
      dsimp only
      by_cases hid : tx.transactionId = transactionId
      · rw [if_neg (not_not.mpr hid), if_pos (not_not.mp fun hvalid => hnot ⟨hid, hvalid⟩)]
        rfl
      · rw [if_pos hid]
        rfl

/-- The call is a request for fragments of the active transaction `order`, and it was accepted;
`asked` are those that the transaction has. -/
def APRSAdapter.AsksFor (setup : Setup) (call : Call) (order : ℕ) (asked : Finset ℕ)
    (s : APRSAdapter) : Prop :=
  ∃ peer body now transactionId indices tx, call = .receive peer body now ∧
    parseBurstControl body = some (.missing transactionId indices) ∧
    s.burstActive.get? peer = some tx ∧ tx.order = order ∧ tx.validMissing indices = asked ∧
    answer setup s call = .ok (.disposition .repairRequested)

theorem asksFor_repairs {s : APRSAdapter} (hsound : s.outbound.Sound setup) {call : Call}
    (h : s.AsksFor setup call order asked) : (step setup s call).outbound.Repairs order asked := by
  obtain ⟨peer, body, now, transactionId, indices, tx, rfl, hcontrol, hactive, rfl, rfl, hanswer⟩ :=
    h
  rw [answer_receive] at hanswer
  rw [step_receive]
  rcases (receive_of_control hcontrol : receive setup peer body now = _ ∨ _) with
    hreceive | hreceive
  · rw [hreceive] at hanswer
    cases hanswer
  rw [hreceive] at hanswer ⊢
  rcases receiveControl_yields (.missing transactionId indices) s with
    ⟨-, hne⟩ | ⟨tx', indices', hmissing, hactive', -, -, hs'⟩
  · cases houtcome : ((receiveControl setup peer (.missing transactionId indices)).run s).1 with
    | ok d =>
      rw [houtcome] at hanswer hne
      cases hanswer
      exact absurd rfl hne
    | error e =>
      rw [houtcome] at hanswer
      cases hanswer
  · obtain rfl := Option.some.inj (hactive.symm.trans hactive')
    obtain ⟨-, rfl⟩ := BurstControl.missing.inj hmissing
    rw [hs']
    have hheld : tx ∈ s.outbound.held := Outbound.mem_held.mpr
      (.inr (Outbound.active_mem_values hactive))
    refine ⟨fun tx' htx' => hsound.order_ne_of_erase hactive (.inl htx'),
      Outbound.order_lt_of_held hsound hheld,
      fun peer' tx' htx' horder => ?_⟩
    by_cases hpeer : peer' = peer
    · subst hpeer
      obtain rfl := Option.some.inj ((OrderedDict.get?_set_self _ _ _).symm.trans htx')
      exact .repaired tx indices
    · have hother := (OrderedDict.get?_set_of_ne hpeer).symm.trans htx'
      have herase := (OrderedDict.get?_erase_of_ne hpeer).trans hother
      refine absurd horder (hsound.order_ne_of_erase hactive (.inr ?_))
      exact List.mem_map_of_mem (OrderedDict.get?_eq_some_iff.mp herase)

/-- A call that does not ask for other fragments of the transaction. -/
theorem step_repairs {s : APRSAdapter} (hsound : s.outbound.Sound setup)
    (h : s.outbound.Repairs order asked)
    {call : Call} (hcall : ∀ asked', ¬s.AsksFor setup call order asked') :
    (step setup s call).outbound.Repairs order asked ∧
      SentAs order asked (call.bursts setup s) := by
  by_cases hpoll : ∀ now, call ≠ .poll now
  · rw [Call.bursts_of_ne_poll hpoll]
    refine ⟨?_, .nil⟩
    cases hcontrol : call.isControl with
    | false => exact (step_changes s hpoll hcontrol).repairs h
    | true =>
      cases call with
      | receive peer body now =>
        obtain ⟨control, hcontrol⟩ := Option.isSome_iff_exists.mp hcontrol
        rw [step_receive]
        rcases (receive_of_control hcontrol : receive setup peer body now = _ ∨ _) with
          hreceive | hreceive
        · rwa [hreceive]
        rw [hreceive]
        rcases receiveControl_yields control s with
          ⟨hchanges, -⟩ | ⟨tx, indices, rfl, hactive, -, houtcome, hs'⟩
        · exact hchanges.repairs h
        · rw [hs']
          refine h.set s.lastSend fun horder => absurd ?_ (hcall (tx.validMissing indices))
          refine ⟨peer, body, now, _, indices, tx, rfl, hcontrol, hactive, horder, rfl, ?_⟩
          rw [answer_receive, hreceive]
          exact congrArg (Except.map Response.disposition) houtcome
      | _ => cases hcontrol
  · push Not at hpoll
    obtain ⟨now, rfl⟩ := hpoll
    rw [step_poll, Call.bursts, answer_poll]
    obtain ⟨hrepairs, hsent⟩ : (pollEmissions setup now).Yields s _ :=
      pollEmissions_repairs hsound h
    refine ⟨hrepairs, ?_⟩
    cases houtcome : ((pollEmissions setup now).run s).1 with
    | ok es => exact hsent es houtcome
    | error e => exact .nil

end Calls

/-! ### Runs -/

section Runs

variable {setup : Setup} {core : CoreState} {calls : List Call} {order : ℕ} {asked : Finset ℕ}

/-- From a request for fragments on, until the next one. -/
theorem runState_repairs {i : ℕ}
    (hasks : AtCall setup core calls i fun s call => s.AsksFor setup call order asked) {j : ℕ}
      (hij : i < j)
    (hj : j ≤ calls.length)
    (hlast : ∀ k, i < k → k < j → ∀ asked',
      ¬AtCall setup core calls k fun s call => s.AsksFor setup call order asked') :
    (runState setup core calls j).outbound.Repairs order asked := by
  obtain ⟨hi, hasks⟩ := hasks
  induction j, Nat.succ_le_of_lt hij using Nat.le_induction with
  | base =>
    rw [runState, stateAt_succ hi]
    exact asksFor_repairs (runState_sound setup core calls i hi.le) hasks
  | succ j hle ih =>
    have hrepairs := ih (Nat.lt_of_succ_le hle) (Nat.le_of_succ_le hj) fun k hik hkj =>
      hlast k hik (Nat.lt_succ_of_lt hkj)
    rw [runState, stateAt_succ hj]
    refine (step_repairs (runState_sound setup core calls j (Nat.le_of_succ_le hj)) hrepairs ?_).1
    exact fun asked' h => hlast j (Nat.lt_of_succ_le hle) (Nat.lt_succ_self j) asked' ⟨hj, h⟩

/-- In every run, after a peer's request for fragments of its active transaction was accepted, and
until the next such request, every burst of that transaction consists of exactly the requested
fragments that it has, each once and in ascending order. A control that names no active transaction
of its peer, or only fragments that the transaction does not have, is ignored and changes
nothing. -/
theorem selective_repair (setup : Setup) (core : CoreState) (calls : List Call) :
    (∀ i j order asked, i < j →
      AtCall setup core calls i (fun s call => s.AsksFor setup call order asked) →
      (∀ k, i < k → k < j → ∀ asked',
        ¬AtCall setup core calls k fun s call => s.AsksFor setup call order asked') →
      ∀ b ∈ burstsAt setup core calls j, b.tx.order = order →
        (sorted asked).Pairwise (· < ·) ∧ (∀ index, index ∈ sorted asked ↔ index ∈ asked) ∧
        b.packets.map some = (sorted asked).map (b.tx.packets[·]?)) ∧
    ∀ i peer body now control, parseBurstControl body = some control →
      AtCall setup core calls i (fun s call => call = .receive peer body now ∧
        ∀ tx, s.burstActive.get? peer = some tx → ¬control.Names tx) →
      AtCall setup core calls i fun s call =>
        answer setup s call = .ok (.disposition .ignored) ∧ step setup s call = s := by
  constructor
  · intro i j order asked hij hasks hlast b hb horder
    by_cases hj : j < calls.length
    · rw [burstsAt_of_lt hj] at hb
      by_cases hagain : ∃ asked', (runState setup core calls j).AsksFor setup calls[j] order asked'
      · -- A request for fragments sends nothing itself.
        obtain ⟨_, peer, body, now, _, _, _, hcall, -⟩ := hagain
        rw [hcall] at hb
        exact absurd hb List.not_mem_nil
      · have hrepairs := runState_repairs hasks hij hj.le hlast
        have hsent := (step_repairs (runState_sound setup core calls j hj.le) hrepairs
          (not_exists.mp hagain)).2
        exact ⟨sorted_pairwise asked, fun _ => mem_sorted, hsent b hb horder⟩
    · rw [burstsAt, List.getElem?_eq_none (not_lt.mp hj)] at hb
      exact absurd hb List.not_mem_nil
  · rintro i peer body now control hcontrol ⟨hi, hcall, hnames⟩
    refine ⟨hi, ?_⟩
    show answer setup _ calls[i] = _ ∧ step setup _ calls[i] = _
    rw [hcall, answer_receive, step_receive]
    rcases (receive_of_control hcontrol : receive setup peer body now = _ ∨ _) with
      hreceive | hreceive
    · rw [hreceive]
      exact ⟨rfl, rfl⟩
    · rw [hreceive, receiveControl_ignored hnames]
      exact ⟨rfl, rfl⟩

end Runs

end OpenQSP
