import Mathlib.Algebra.Order.BigOperators.Group.List
import OpenQSP.Aprs.History
import OpenQSP.Aprs.Polling

/-!
# The structure of the outbound half

In every reachable state the transactions that the adapter holds for one peer have different ids,
each carries one frame under its id, each peer has at most one active transaction, and there is
room for all their fragments. Then a new id is found whenever one of the 256 is free.

## Main definitions

* `Outbound.Sound` — the invariant
* `Outbound.Later` — what never comes back
* `Call.bursts` — what a call sends

## Main results

* `Outbound.Sound.move` — every move keeps the invariant
* `Outbound.Sound.later`, `runState_later` — what is held no more does not come back
* `step_trace` — every call is a sequence of moves
* `runState_sound`
* **`outbound_structure`**
-/

namespace OpenQSP

open APRSAdapter Method

variable {setup : Setup} {o o' : Outbound} {b : Option Burst}

namespace Outbound

/-- The invariant of the outbound half. -/
structure Sound (setup : Setup) (o : Outbound) : Prop where
  peers : o.PeersMatch
  carries : ∀ p ∈ o.parcels, p.Carries setup
  addressed : ∀ p ∈ o.parcels, p.Addressed
  ids : (o.parcels.map fun p => (p.peer, p.transactionId)).Nodup
  orders : (o.parcels.map (·.order)).Nodup
  order_lt : ∀ p ∈ o.parcels, p.order < o.nextOrder
  load : (o.parcels.map (·.fragments.length)).sum ≤ setup.config.queueCapacity
  base : o.baseQueue = [] ∧ o.basePending = .empty
  /-- What was reported to Core are the ends of the transactions with a delivery. -/
  reported : o.reports = o.endings.filterMap Ending.report

theorem Sound.empty : Sound setup ⟨[], .empty, 0, .empty, [], [], [], .empty⟩ where
  peers _ h := absurd h List.not_mem_nil
  carries _ h := absurd h List.not_mem_nil
  addressed _ h := absurd h List.not_mem_nil
  ids := List.nodup_nil
  orders := List.nodup_nil
  order_lt _ h := absurd h List.not_mem_nil
  load := Nat.zero_le _
  base := ⟨rfl, rfl⟩
  reported := rfl

theorem Move.base_empty (h : o.baseQueue = [] ∧ o.basePending = .empty)
    (hmove : Move setup o b o') :
    o'.baseQueue = [] ∧ o'.basePending = .empty := by
  cases hmove with
  | base queue_nil pending_empty _ => exact ⟨queue_nil h.1, pending_empty h.2⟩
  | _ => exact h

theorem Move.reported (hbase : o.baseQueue = [] ∧ o.basePending = .empty)
    (h : o.reports = o.endings.filterMap Ending.report) (hmove : Move setup o b o') :
    o'.reports = o'.endings.filterMap Ending.report := by
  cases hmove with
  | base _ _ reports_eq => exact (reports_eq hbase.1 hbase.2).trans h
  | @finish peer tx active acknowledged =>
    rw [finished, List.filterMap_append, ← h]
    cases hreport : Ending.report ⟨tx.order, tx.delivery, acknowledged⟩ with
    | none => rw [List.filterMap_cons_none hreport]; rfl
    | some report => rw [List.filterMap_cons_some hreport]; rfl
  | _ => exact h

theorem Sound.move (h : o.Sound setup) (hmove : Move setup o b o') : o'.Sound setup := by
  have hpeers := hmove.peersMatch h.peers
  have hbase := hmove.base_empty h.base
  have hreported := hmove.reported h.base h.reported
  rcases hmove.parcels h.peers with ⟨hnext, kept, hperm, hsub⟩ |
    ⟨p, horder, hnext, hfresh, hfits, hcarries, haddressed, hperm⟩
  · have hold : ∀ p ∈ o'.parcels, p ∈ o.parcels := fun p hp => hsub.subset (hperm.mem_iff.mpr hp)
    have hload : (o'.parcels.map (·.fragments.length)).sum ≤
      (o.parcels.map (·.fragments.length)).sum := by
      rw [← (hperm.map _).sum_eq]
      exact (hsub.map _).sum_le_sum fun _ _ => Nat.zero_le _
    exact ⟨hpeers, fun p hp => h.carries p (hold p hp), fun p hp => h.addressed p (hold p hp),
      (hperm.map _).nodup_iff.mp (h.ids.sublist (hsub.map _)),
      (hperm.map _).nodup_iff.mp (h.orders.sublist (hsub.map _)),
      fun p hp => hnext ▸ h.order_lt p (hold p hp), hload.trans h.load, hbase, hreported⟩
  · have hmem : ∀ {p'}, p' ∈ o'.parcels → p' = p ∨ p' ∈ o.parcels := fun hp =>
      List.mem_cons.mp (hperm.mem_iff.mp hp)
    refine ⟨hpeers, fun p' hp' => ?_, fun p' hp' => ?_, (hperm.map _).nodup_iff.mpr ?_,
      (hperm.map _).nodup_iff.mpr ?_,
      fun p' hp' => ?_, ?_, hbase, hreported⟩
    · rcases hmem hp' with rfl | hp'
      · exact hcarries
      · exact h.carries p' hp'
    · rcases hmem hp' with rfl | hp'
      · exact haddressed
      · exact h.addressed p' hp'
    · refine List.nodup_cons.mpr ⟨fun hin => ?_, h.ids⟩
      obtain ⟨p', hp', heq⟩ := List.mem_map.mp hin
      obtain ⟨hpeer, hid⟩ := Prod.mk.inj heq
      exact hfresh p' hp' hpeer hid
    · refine List.nodup_cons.mpr ⟨fun hin => ?_, h.orders⟩
      obtain ⟨p', hp', heq⟩ := List.mem_map.mp hin
      exact absurd (heq.trans horder) (h.order_lt p' hp').ne
    · rcases hmem hp' with rfl | hp'
      · omega
      · have hlt := h.order_lt p' hp'
        omega
    · rw [(hperm.map _).sum_eq, List.map_cons, List.sum_cons, Nat.add_comm]
      exact hfits

theorem Sound.trace {log : List Burst} (h : o.Sound setup) (htrace : Trace (Move setup) o log o') :
    o'.Sound setup :=
  htrace.keeps h fun _ _ _ h hmove => h.move hmove

/-! ### What never comes back -/

/-- A transaction that is queued is held until it leaves for good, and carries the same all the
time; it waits only before it is started. -/
structure Later (o o' : Outbound) : Prop where
  order_le : o.nextOrder ≤ o'.nextOrder
  queue_old : ∀ tx ∈ o'.queue, tx.order < o.nextOrder → tx ∈ o.queue
  held_old : ∀ tx' ∈ o'.held, tx'.order < o.nextOrder → ∃ tx ∈ o.held, tx.parcel = tx'.parcel
  endings_prefix : o.endings <+: o'.endings

instance : IsPreorder Outbound Later where
  refl o := ⟨le_rfl, fun _ h _ => h, fun tx h _ => ⟨tx, h, rfl⟩, List.prefix_rfl⟩
  trans o o' o'' h h' := by
    refine ⟨h.order_le.trans h'.order_le, fun tx htx hlt => ?_, fun tx'' htx'' hlt => ?_,
      h.endings_prefix.trans h'.endings_prefix⟩
    · exact h.queue_old tx (h'.queue_old tx htx (hlt.trans_le h.order_le)) hlt
    · obtain ⟨tx', htx', heq'⟩ := h'.held_old tx'' htx'' (hlt.trans_le h.order_le)
      have horder : tx'.order = tx''.order := congrArg Parcel.order heq'
      obtain ⟨tx, htx, heq⟩ := h.held_old tx' htx' (horder ▸ hlt)
      exact ⟨tx, htx, heq.trans heq'⟩

theorem Move.later (hpeers : o.PeersMatch) (h : Move setup o b o') : o.Later o' := by
  have hheld : ∀ tx' ∈ o'.held, tx'.order < o.nextOrder →
      ∃ tx ∈ o.held, tx.parcel = tx'.parcel := fun tx' htx' hlt =>
    (h.held_parcel hpeers htx').resolve_right hlt.ne
  cases h with
  | drop p q => exact ⟨le_rfl, fun _ h _ => List.mem_of_mem_filter h, hheld, List.prefix_rfl⟩
  | base => exact ⟨le_rfl, fun _ h _ => h, hheld, List.prefix_rfl⟩
  | @enqueue tx order_eq _ _ _ _ _ _ =>
    refine ⟨Nat.le_succ _, fun v hv hlt => ?_, hheld, List.prefix_rfl⟩
    refine (List.mem_append.mp hv).resolve_right fun hv => ?_
    rw [List.mem_singleton.mp hv, order_eq] at hlt
    exact absurd hlt (lt_irrefl _)
  | adjust => exact ⟨le_rfl, fun _ h _ => h, hheld, List.prefix_rfl⟩
  | finish => exact ⟨le_rfl, fun _ h _ => h, hheld, List.prefix_append _ _⟩
  | retry => exact ⟨le_rfl, fun _ h _ => h, hheld, List.prefix_rfl⟩
  | start => exact ⟨le_rfl, fun _ h _ => List.mem_of_mem_erase h, hheld, List.prefix_rfl⟩

theorem Sound.later {log : List Burst} (h : o.Sound setup) (htrace : Trace (Move setup) o log o') :
    o.Later o' := by
  have hboth : o'.Sound setup ∧ o.Later o' :=
    htrace.keeps (I := fun o' => o'.Sound setup ∧ o.Later o') ⟨h, refl_of _ _⟩
      fun _ _ _ h hmove => ⟨h.1.move hmove, trans_of _ h.2 (hmove.later h.1.peers)⟩
  exact hboth.2

/-- Transactions of one order carry the same. -/
theorem Sound.parcel_unique (h : o.Sound setup) {tx tx' : BurstTx} (htx : tx ∈ o.held)
    (htx' : tx' ∈ o.held) (horder : tx'.order = tx.order) : tx'.parcel = tx.parcel :=
  List.inj_on_of_nodup_map h.orders (List.mem_map_of_mem htx') (List.mem_map_of_mem htx) horder

/-- The queue has no duplicates. -/
theorem Sound.nodup_queue (h : o.Sound setup) : o.queue.Nodup := by
  have horders := h.orders
  rw [parcels_eq, List.map_append, List.map_map] at horders
  exact (List.nodup_append.mp horders).1.of_map

end Outbound

/-! ### Calls -/

/-- The data bursts that a `poll` returns. -/
def Response.bursts (now : ℚ) : Py Response → List Burst
  | .ok (.packets emissions) => burstsOf now emissions
  | _ => []

/-- The data bursts that a call sends. -/
def Call.bursts (setup : Setup) (s : APRSAdapter) : Call → List Burst
  | .poll now => Response.bursts now (answer setup s (.poll now))
  | _ => []

theorem Call.bursts_of_ne_poll {call : Call} (h : ∀ now, call ≠ .poll now) (s : APRSAdapter) :
    call.bursts setup s = [] := by
  cases call with
  | poll now => exact absurd rfl (h now)
  | _ => rfl

/-- Every call is a sequence of moves: retries of active transactions, and starts of queued ones
that are the first of their peer. What they send is what the call sends, unless the call raises;
then it has started nothing. -/
theorem step_trace {s : APRSAdapter} (h : s.outbound.Sound setup) (call : Call) :
    ∃ retries starts : List Burst,
      Trace (Outbound.Move setup) s.outbound (retries ++ starts) (step setup s call).outbound ∧
      (∀ b ∈ retries, b.tx ∈ s.burstActive.values) ∧
      (∀ b ∈ starts, FirstOfPeer s.burstQueue b.tx) ∧
      (call.bursts setup s = retries ++ starts ∨ (call.bursts setup s = [] ∧ starts = [])) := by
  by_cases hpoll : ∀ now, call ≠ .poll now
  · exact ⟨[], [], step_quiet s hpoll, fun _ hb => absurd hb List.not_mem_nil,
      fun _ hb => absurd hb List.not_mem_nil, .inl (Call.bursts_of_ne_poll hpoll s)⟩
  push Not at hpoll
  obtain ⟨now, rfl⟩ := hpoll
  obtain ⟨retries, starts, htrace, hretries, hstarts, hok, herror⟩ :=
    pollEmissions_trace setup now h.nodup_queue
  refine ⟨retries, starts, ?_, hretries, hstarts, ?_⟩
  · rw [step_poll]
    exact htrace
  · rw [Call.bursts, answer_poll]
    cases houtcome : ((pollEmissions setup now).run s).1 with
    | ok es => exact .inl (hok es houtcome)
    | error e => exact .inr ⟨rfl, herror e houtcome⟩

theorem step_sound {s : APRSAdapter} (h : s.outbound.Sound setup) (call : Call) :
    (step setup s call).outbound.Sound setup := by
  obtain ⟨_, _, htrace, -⟩ := step_trace h call
  exact h.trace htrace

variable (setup) in
theorem runState_sound (core : CoreState) (calls : List Call) :
    ∀ i ≤ calls.length, (runState setup core calls i).outbound.Sound setup :=
  stateAt_invariant (I := fun s : APRSAdapter => s.outbound.Sound setup) .empty
    fun _ _ h => step_sound h _

theorem runState_later {core : CoreState} {calls : List Call} {i j : ℕ} (hij : i ≤ j)
    (hj : j ≤ calls.length) :
    (runState setup core calls i).outbound.Later (runState setup core calls j).outbound := by
  refine stateAt_rel (R := fun s s' : APRSAdapter => s.outbound.Later s'.outbound)
    (fun s => refl_of _ _) (fun _ _ _ h h' => trans_of _ h h') (fun k hk _ => ?_) hij hj
  have hsound := runState_sound setup core calls k hk.le
  obtain ⟨_, _, htrace, -⟩ := step_trace hsound calls[k]
  exact hsound.later htrace

/-! ### Ids -/

/-- The transactions to a peer that wait or are active. -/
def APRSAdapter.transactionsOf (peer : Str) (s : APRSAdapter) : List BurstTx :=
  (s.burstQueue ++ s.burstActive.values).filter fun tx => tx.peer = peer

/-- The ids of a peer that are in use. -/
def APRSAdapter.idsInUse (peer : Str) (s : APRSAdapter) : Finset Str :=
  ((s.transactionsOf peer).map (·.transactionId)).toFinset

section Ids

variable {s : APRSAdapter} {peer : Str}

theorem mem_activeTransactions_iff (h : s.outbound.Sound setup) {transactionId : Str} :
    transactionId ∈ s.activeTransactions peer ↔ transactionId ∈ s.idsInUse peer := by
  have hbase : activeTransactionIds peer s = [] := by
    rw [activeTransactionIds, show s.queue = [] from h.base.1,
      show s.pending = .empty from h.base.2]
    rfl
  have hactive : ∀ tx, s.burstActive.get? peer = some tx ↔
      tx ∈ s.burstActive.values ∧ tx.peer = peer := by
    intro tx
    rw [OrderedDict.get?_eq_some_iff]
    constructor
    · exact fun he => ⟨List.mem_map_of_mem he, h.peers _ he⟩
    · rintro ⟨htx, rfl⟩
      obtain ⟨e, he, rfl⟩ := List.mem_map.mp htx
      rw [h.peers e he]
      exact he
  simp only [activeTransactions, hbase, List.nil_append, idsInUse, transactionsOf,
    List.mem_toFinset,
    List.mem_append, List.mem_map, List.mem_filter, Option.mem_toList,
    Option.map_eq_some_iff, hactive, decide_eq_true_eq]
  constructor
  · rintro (⟨tx, ⟨htx, hpeer⟩, hid⟩ | ⟨tx, ⟨htx, hpeer⟩, hid⟩)
    · exact ⟨tx, ⟨.inl htx, hpeer⟩, hid⟩
    · exact ⟨tx, ⟨.inr htx, hpeer⟩, hid⟩
  · rintro ⟨tx, ⟨htx | htx, hpeer⟩, hid⟩
    · exact .inl ⟨tx, ⟨htx, hpeer⟩, hid⟩
    · exact .inr ⟨tx, ⟨htx, hpeer⟩, hid⟩

/-- When the loop finds nothing, it has passed as many ids as it had tries. -/
theorem allocateFrom_eq_none {active : List Str} {tries next : ℕ}
    (h : (allocateFrom active tries next).1 = none) :
    ∀ k < tries, base36Digits 3 ((next + k) % 256) ∈ active := by
  induction tries generalizing next with
  | zero => exact fun k hk => absurd hk (Nat.not_lt_zero k)
  | succ tries ih =>
    rw [allocateFrom] at h
    split at h
    · cases h
    · next hused =>
      intro k hk
      cases k with
      | zero => exact not_not.mp hused
      | succ k =>
        have hnext := ih h k (Nat.lt_of_succ_lt_succ hk)
        rwa [show (next % 256 + 1 + k) % 256 = (next + (k + 1)) % 256 by omega] at hnext

/-- A loop over all ids that finds nothing has found all of them in use. -/
theorem allocateFrom_exhausted {active : List Str} {next : ℕ}
    (h : (allocateFrom active 256 next).1 = none) : ∀ value < 256,
      base36Digits 3 value ∈ active := by
  intro value hvalue
  have hused := allocateFrom_eq_none h ((value + 256 - next % 256) % 256) (Nat.mod_lt _ (by omega))
  rwa [show (next + (value + 256 - next % 256) % 256) % 256 = value by omega] at hused

/-- There are 256 ids. -/
theorem card_of_all_ids {ids : Finset Str} (h : ∀ value < 256, base36Digits 3 value ∈ ids) :
    256 ≤ ids.card := by
  have hinj : Set.InjOn (base36Digits 3) (Finset.range 256 : Set ℕ) := by
    intro value hvalue value' hvalue' heq
    have hlt : ∀ {n}, n ∈ (Finset.range 256 : Set ℕ) → n < 36 ^ 3 := fun hn =>
      (Finset.mem_range.mp (Finset.mem_coe.mp hn)).trans (by decide)
    have hparse : parseBase36 (base36Digits 3 value) 3 = _ := parseBase36_base36Digits (hlt hvalue)
    rw [heq, parseBase36_base36Digits (hlt hvalue')] at hparse
    exact (Except.ok.inj hparse).symm
  have hsub : (Finset.range 256).image (base36Digits 3) ⊆ ids := by
    intro id hid
    obtain ⟨value, hvalue, rfl⟩ := Finset.mem_image.mp hid
    exact h value (Finset.mem_range.mp hvalue)
  calc 256 = ((Finset.range 256).image (base36Digits 3)).card := by
        rw [Finset.card_image_of_injOn hinj, Finset.card_range]
    _ ≤ ids.card := Finset.card_le_card hsub

variable (peer) in
/-- An id that is not in use is found, unless all 256 are. -/
theorem allocate_spec (h : s.outbound.Sound setup) :
    (∃ transactionId, ((allocate peer).run s).1 = .ok transactionId ∧
      transactionId ∉ s.idsInUse peer) ∨
    (((allocate peer).run s).1 = .error ⟨.overflowError, "peer Q2 transaction ID space exhausted"⟩ ∧
      ∀ value < 256, base36Digits 3 value ∈ s.idsInUse peer) := by
  obtain ⟨found, hfound⟩ : ∃ found, allocateFrom (s.activeTransactions peer) 256
    ((s.nextTransaction.get? peer).getD 0) = found := ⟨_, rfl⟩
  rw [allocate_run hfound]
  rcases found with ⟨_ | candidate, next⟩
  · refine .inr ⟨rfl, fun value hvalue => ?_⟩
    exact (mem_activeTransactions_iff h).mp (allocateFrom_exhausted (congrArg Prod.fst hfound) value
      hvalue)
  · refine .inl ⟨candidate, rfl, fun hused => ?_⟩
    exact allocateFrom_notMem (congrArg Prod.fst hfound) ((mem_activeTransactions_iff h).mpr hused)

end Ids

/-! ### The result -/

/-- The transactions that are active are under different peers. -/
theorem Outbound.Sound.active_le_one (h : o.Sound setup) (peer : Str) :
    (o.active.values.filter fun tx => tx.peer = peer).length ≤ 1 := by
  have hpeers : o.active.values.map (·.peer) = o.active.keys := by
    rw [OrderedDict.values, OrderedDict.keys, List.map_map]
    exact List.map_congr_left h.peers
  have hnodup : (o.active.values.map (·.peer)).Nodup := hpeers ▸ o.active.nodup_keys
  have hcount := List.nodup_iff_count_le_one.mp hnodup peer
  rw [List.count, List.countP_map, List.countP_eq_length_filter] at hcount
  refine le_trans (le_of_eq (congrArg List.length (List.filter_congr fun tx _ => ?_))) hcount
  exact (beq_eq_decide tx.peer peer).symm

/-- A transaction carries the same as long as the adapter holds it. -/
theorem parcel_of_held {core : CoreState} {calls : List Call} {i j : ℕ} (hij : i ≤ j)
    (hj : j ≤ calls.length) {tx tx' : BurstTx}
    (htx : tx ∈ (runState setup core calls i).outbound.held)
    (htx' : tx' ∈ (runState setup core calls j).outbound.held) (horder : tx'.order = tx.order) :
    tx'.parcel = tx.parcel := by
  have hsound := runState_sound setup core calls i (hij.trans hj)
  have hlt : tx.order < (runState setup core calls i).outbound.nextOrder :=
    hsound.order_lt tx.parcel (List.mem_map_of_mem htx)
  obtain ⟨old, hold, heq⟩ := (runState_later hij hj).held_old tx' htx' (horder ▸ hlt)
  have hsame : old.order = tx.order := (congrArg Parcel.order heq).trans horder
  exact heq.symm.trans (hsound.parcel_unique htx hold hsame)

/-- In every reachable state of the production adapter, the transactions to a peer that wait or are
active have different ids, at most one of them is active, each has the packets of its frame under
its id, and all fragments together fit the capacity. The frame of a transaction is the one that
`queue_frame` was given when it returned the id, and it stays the same. A new id is one that is not
in use; one is found whenever fewer than 256 are in use, and only when all 256 are is there none. -/
theorem outbound_structure (setup : Setup) (core : CoreState) (calls : List Call) :
    (∀ peer, (((runState setup core calls calls.length).transactionsOf peer).map
      (·.transactionId)).Nodup) ∧
    (∀ peer, ((runState setup core calls calls.length).burstActive.values.filter
      fun tx => tx.peer = peer).length ≤ 1) ∧
    (∀ tx ∈ (runState setup core calls calls.length).burstQueue ++
        (runState setup core calls calls.length).burstActive.values,
      fragmentFrameV2 tx.frame tx.transactionId = .ok tx.fragments ∧
      ∃ bodies, tx.fragments.mapM APRSFragment.body = .ok bodies ∧
        tx.packets = bodies.map fun body => ⟨setup.serviceCallsign, tx.peer, body, false⟩) ∧
    (∀ (s : APRSAdapter) peer frame options transactionId,
      ((queueFrame setup peer frame options).run s).1 = .ok transactionId →
      ∃ tx ∈ ((queueFrame setup peer frame options).run s).2.burstQueue,
        tx.order = s.burstOrder ∧ tx.peer = peer ∧ tx.transactionId = transactionId ∧
        tx.frame = frame) ∧
    (∀ i j, i ≤ j → j ≤ calls.length →
      ∀ tx ∈ (runState setup core calls i).burstQueue ++
          (runState setup core calls i).burstActive.values,
        ∀ tx' ∈ (runState setup core calls j).burstQueue ++
          (runState setup core calls j).burstActive.values,
        tx'.order = tx.order → tx'.peer = tx.peer ∧ tx'.transactionId = tx.transactionId ∧
          tx'.frame = tx.frame) ∧
    (runState setup core calls calls.length).queuedCount +
      (runState setup core calls calls.length).pendingCount ≤ setup.config.queueCapacity ∧
    ∀ peer,
      (((runState setup core calls calls.length).idsInUse peer).card < 256 →
        ∃ transactionId,
          ((allocate peer).run (runState setup core calls calls.length)).1 = .ok transactionId ∧
          transactionId ∉ (runState setup core calls calls.length).idsInUse peer) ∧
      (∀ e, ((allocate peer).run (runState setup core calls calls.length)).1 = .error e →
        e.cls = .overflowError ∧
        ∀ value < 256, base36Digits 3 value ∈
          (runState setup core calls calls.length).idsInUse peer) := by
  have hstays : ∀ i j, i ≤ j → j ≤ calls.length →
      ∀ tx ∈ (runState setup core calls i).outbound.held,
        ∀ tx' ∈ (runState setup core calls j).outbound.held,
        tx'.order = tx.order → tx'.peer = tx.peer ∧ tx'.transactionId = tx.transactionId ∧
          tx'.frame = tx.frame := fun i j hij hj tx htx tx' htx' horder =>
    have hparcel := parcel_of_held hij hj htx htx' horder
    ⟨congrArg Parcel.peer hparcel, congrArg Parcel.transactionId hparcel,
      congrArg Parcel.frame hparcel⟩
  have h := runState_sound setup core calls calls.length le_rfl
  generalize runState setup core calls calls.length = s at h ⊢
  refine ⟨fun peer => ?_, h.active_le_one, fun tx htx => h.carries _ (List.mem_map_of_mem htx),
    fun s peer frame options transactionId hid => ?_, hstays, ?_,
    fun peer => ⟨fun hfree => ?_, fun e he => ?_⟩⟩
  · have hids : ((s.burstQueue ++ s.burstActive.values).map fun tx =>
        (tx.peer, tx.transactionId)).Nodup := by
      have hids := h.ids
      rwa [Outbound.parcels, List.map_map] at hids
    refine (List.nodup_map_iff_inj_on (hids.of_map.filter _)).mpr fun tx htx tx' htx' heq => ?_
    obtain ⟨htx, hpeer⟩ := List.mem_filter.mp htx
    obtain ⟨htx', hpeer'⟩ := List.mem_filter.mp htx'
    refine List.inj_on_of_nodup_map hids htx htx' (Prod.ext ?_ heq)
    exact (of_decide_eq_true hpeer).trans (of_decide_eq_true hpeer').symm
  · obtain ⟨tx, htx, htransaction, hqueues⟩ :=
      (queueFrame_yields frame options s).2 transactionId hid
    exact ⟨tx, htx, hqueues.order_eq, hqueues.peer_eq, htransaction, hqueues.frame_eq⟩
  · rw [queuedCount_add_pendingCount]
    exact h.load
  · rcases allocate_spec peer h with hfound | ⟨-, hall⟩
    · exact hfound
    · exact absurd (card_of_all_ids hall) (not_le.mpr hfree)
  · rcases allocate_spec peer h with ⟨_, hok, -⟩ | ⟨herror, hall⟩
    · rw [hok] at he
      cases he
    · rw [herror] at he
      exact ⟨(Except.error.inj he) ▸ rfl, hall⟩

end OpenQSP
