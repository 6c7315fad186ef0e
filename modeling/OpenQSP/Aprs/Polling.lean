import OpenQSP.Aprs.Outbound

/-!
# What `poll` does to the outbound half

`poll` first retries the active transactions, then it starts queued ones. If it raises, then it
was giving up an active transaction, and nothing had been started yet. A transaction that it
starts is the first of its peer in the queue.

## Main definitions

* `BurstTx.Before` — the order of the queue
* `Emission.burst`, `burstsOf`

## Main results

* `pollActive_yields`, `pollQueued_yields` — one transaction
* `pollEmissions_trace` — what a whole `poll` does
-/

namespace OpenQSP

open APRSAdapter Method

/-- A burst, unless it is a control. -/
def Emission.burst (now : ℚ) : Emission → Option Burst
  | control _ => none
  | frame tx packets => some ⟨now, tx, packets⟩

def burstsOf (now : ℚ) (emissions : List Emission) : List Burst :=
  emissions.filterMap (Emission.burst now)

theorem burstsOf_append (now : ℚ) (emissions emissions' : List Emission) :
    burstsOf now (emissions ++ emissions') = burstsOf now emissions ++ burstsOf now emissions' :=
  List.filterMap_append

theorem burstsOf_controls (now : ℚ) (packets : List OutboundPacket) :
    burstsOf now (packets.map .control) = [] := by
  induction packets with
  | nil => rfl
  | cons packet packets ih => exact ih

theorem burstsOf_snoc (now : ℚ) (as : List (List Emission)) (es : List Emission) :
    burstsOf now (as ++ [es]).flatten = burstsOf now as.flatten ++ burstsOf now es := by
  rw [List.flatten_append, burstsOf_append, List.flatten_singleton]

/-- Responses go before proactive messages, each in the order in which they were queued. -/
def BurstTx.Before (tx tx' : BurstTx) : Prop :=
  tx.priority < tx'.priority ∨ (tx.priority = tx'.priority ∧ tx.order ≤ tx'.order)

instance : DecidableRel BurstTx.Before := fun tx tx' =>
  inferInstanceAs (Decidable (tx.priority < tx'.priority ∨ _))

instance : Std.Total BurstTx.Before where
  total tx tx' := by
    unfold BurstTx.Before
    omega

instance : IsTrans BurstTx BurstTx.Before where
  trans tx tx' tx'' h h' := by
    unfold BurstTx.Before at h h' ⊢
    omega

theorem BurstTx.Before.refl (tx : BurstTx) : tx.Before tx := .inr ⟨rfl, le_rfl⟩

theorem candidates_pairwise (queue : List BurstTx) : (candidates queue).Pairwise BurstTx.Before :=
  List.pairwise_insertionSort BurstTx.Before queue

theorem candidates_perm (queue : List BurstTx) : (candidates queue).Perm queue :=
  List.perm_insertionSort _ queue

variable {setup : Setup} {now : ℚ}

theorem sentRecently_eq_false {s : APRSAdapter} {peer : Str} :
    s.sentRecently setup peer now = false ↔ s.outbound.Clear setup peer now := by
  rw [sentRecently, Outbound.Clear, show s.outbound.lastSend = s.lastSend from rfl]
  cases s.lastSend.get? peer with
  | none => exact ⟨fun _ _ h => absurd h (Option.not_mem_none _), fun _ => rfl⟩
  | some last =>
    rw [Option.any_some, decide_eq_false_iff_not, not_lt]
    exact ⟨fun h last' h' => Option.mem_some.mp h' ▸ h, fun h => h last rfl⟩

/-! ### One active transaction -/

/-- Retrying, deferring or giving up one active transaction leaves the queue and the other active
ones alone. What it sends is of this transaction, and if it raises it has sent nothing. -/
structure PolledActive (setup : Setup) (now : ℚ) (e : Str × BurstTx) (s : APRSAdapter)
    (outcome : Py (List Emission)) (s' : APRSAdapter) : Prop where
  queue_eq : s'.burstQueue = s.burstQueue
  others : ∀ peer ≠ e.1, s'.burstActive.get? peer = s.burstActive.get? peer
  returned : ∀ es, outcome = .ok es →
    Trace (Outbound.Move setup) s.outbound (burstsOf now es) s'.outbound ∧
    ∀ b ∈ burstsOf now es, b.tx = e.2
  raised : ∀ x, outcome = .error x → Quiet setup s s'

theorem pollActive_yields {s : APRSAdapter} {e : Str × BurstTx}
    (h : s.burstActive.get? e.1 = some e.2) :
    (pollActive setup now e).Yields s (PolledActive setup now e s) := by
  have hfail : (do failOutbound setup e.1 e.2; return [] : Adapter (List Emission)).Yields s
      (PolledActive setup now e s) := by
    have hend : ∀ s' : APRSAdapter, s'.outbound = s.outbound.finished e.1 e.2 false →
        s'.burstQueue = s.burstQueue ∧
        ∀ peer ≠ e.1, s'.burstActive.get? peer = s.burstActive.get? peer := by
      intro s' hs'
      have hactive : s'.burstActive = s.burstActive.erase e.1 := congrArg Outbound.active hs'
      refine ⟨congrArg Outbound.queue hs', fun peer hne => ?_⟩
      rw [hactive, OrderedDict.get?_erase_of_ne hne]
    refine Yields.bind (failOutbound_changes h) (fun _ s' hs' => ?_) fun x s' hs' => ?_
    · refine ⟨(hend s' hs'.2).1, (hend s' hs'.2).2, fun es hes => ?_, nofun⟩
      obtain rfl : [] = es := Except.ok.inj hes
      exact ⟨hs'.1.quiet, fun _ hb => absurd hb List.not_mem_nil⟩
    · exact ⟨(hend s' hs'.2).1, (hend s' hs'.2).2, nofun, fun _ _ => hs'.1.quiet⟩
  have hset : ∀ {tx : BurstTx} (peer : Str), peer ≠ e.1 →
      (s.burstActive.set e.1 tx).get? peer = s.burstActive.get? peer :=
    fun _ hne => OrderedDict.get?_set_of_ne hne
  rw [pollActive]
  split
  · refine ⟨rfl, fun _ _ => rfl, fun es hes => ?_, nofun⟩
    obtain rfl : [] = es := Except.ok.inj hes
    exact ⟨Trace.refl _, fun _ hb => absurd hb List.not_mem_nil⟩
  · exact hfail
  · next indices hdue =>
    split
    · exact hfail
    next hattempts =>
    refine Yields.get_bind ?_
    split
    · refine ⟨rfl, hset, fun es hes => ?_, nofun⟩
      obtain rfl : [] = es := Except.ok.inj hes
      exact ⟨Silent.single (.adjust s.outbound h rfl rfl), fun _ hb => absurd hb List.not_mem_nil⟩
    next hrecent =>
    refine ⟨rfl, hset, fun es hes => ?_, nofun⟩
    obtain rfl : [.frame e.2 (e.2.packetsAt indices)] = es := Except.ok.inj hes
    have hclear := sentRecently_eq_false.mp (Bool.eq_false_iff.mpr hrecent)
    refine ⟨Trace.single (Outbound.Move.retry s.outbound indices h (not_le.mp hattempts) hclear),
      fun b hb => ?_⟩
    · exact List.mem_singleton.mp hb ▸ rfl

/-! ### One queued transaction -/

/-- Starting a queued transaction never raises. It is left alone while its peer has an active one,
or when something was sent to the peer recently. -/
theorem pollQueued_yields {s : APRSAdapter} {tx : BurstTx} (h : tx ∈ s.burstQueue) :
    (pollQueued setup now tx).Yields s fun outcome s' =>
      (outcome = .ok [] ∧ s' = s ∧
        (tx.peer ∈ s.burstActive.keys ∨ ¬s.outbound.Clear setup tx.peer now)) ∨
      (outcome = .ok [.frame tx tx.packets] ∧ tx.peer ∉ s.burstActive.keys ∧
        s.outbound.Clear setup tx.peer now ∧
        Outbound.Move setup s.outbound (some ⟨now, tx, tx.packets⟩) s'.outbound ∧
        s' = { s with
          burstQueue := s.burstQueue.erase tx
          burstActive := s.burstActive.set tx.peer (tx.started (now + setup.config.ackTimeout))
          lastSend := s.lastSend.set tx.peer now }) := by
  refine Yields.get_bind ?_
  split
  · next hbusy => exact .inl ⟨rfl, rfl, .inl hbusy⟩
  next hidle =>
  split
  · next hrecent =>
    refine .inl ⟨rfl, rfl, .inr fun hclear => ?_⟩
    rw [sentRecently_eq_false.mpr hclear] at hrecent
    cases hrecent
  next hrecent =>
  have hclear := sentRecently_eq_false.mp (Bool.eq_false_iff.mpr hrecent)
  exact .inr ⟨rfl, hidle, hclear, .start s.outbound h hidle hclear, rfl⟩

/-! ### The loops -/

theorem pollProgress_yields (e : TransactionKey × RxProgress) (s : APRSAdapter) :
    (pollProgress setup now e).Yields s fun outcome s' =>
      s'.outbound = s.outbound ∧ ∀ es, outcome = .ok es → burstsOf now es = [] := by
  unfold pollProgress
  split
  · refine ⟨rfl, fun es hes => ?_⟩
    obtain rfl : [] = es := Except.ok.inj hes
    rfl
  split
  · refine ⟨rfl, fun es hes => ?_⟩
    obtain rfl : [] = es := Except.ok.inj hes
    rfl
  · refine Yields.ofExcept_bind (fun body _ => ⟨rfl, fun es hes => ?_⟩) fun _ _ => ⟨rfl, nofun⟩
    obtain rfl : [.control ⟨setup.serviceCallsign, e.1.1, body, false⟩] = es := Except.ok.inj hes
    rfl

theorem pollAllProgress_yields (s : APRSAdapter) :
    (pollAllProgress setup now).Yields s fun outcome s' =>
      s'.outbound = s.outbound ∧ ∀ as, outcome = .ok as → burstsOf now as.flatten = [] := by
  refine Yields.get_bind (Yields.mono (Yields.mapM
    (I := fun as _ s' => s'.outbound = s.outbound ∧ burstsOf now as.flatten = [])
    (E := fun _ s' => s'.outbound = s.outbound) (fun as e l s₁ hI => ?_) _ [] s ⟨rfl, rfl⟩)
    fun outcome s' h => ?_)
  · refine Yields.mono (pollProgress_yields e s₁) fun outcome s₂ hs₂ =>
      ⟨fun es hes => ?_, fun _ _ => ?_⟩
    · rw [burstsOf_snoc, hI.2, hs₂.2 es hes]
      exact ⟨hs₂.1.trans hI.1, rfl⟩
    · exact hs₂.1.trans hI.1
  · cases outcome with
    | ok as => exact ⟨(h.1 as rfl).1, fun as' has' => Except.ok.inj has' ▸ (h.1 as rfl).2⟩
    | error e => exact ⟨h.2 e rfl, nofun⟩

theorem pollAllActive_yields (s : APRSAdapter) :
    (pollAllActive setup now).Yields s fun outcome s' =>
      s'.burstQueue = s.burstQueue ∧ ∃ retries,
        Trace (Outbound.Move setup) s.outbound retries s'.outbound ∧
        (∀ b ∈ retries, b.tx ∈ s.burstActive.values) ∧
        ∀ as, outcome = .ok as → burstsOf now as.flatten = retries := by
  -- The entries that are left are still active, and every retry was one of them.
  have hstep : ∀ as (e : Str × BurstTx) l s₁,
      (s₁.burstQueue = s.burstQueue ∧
        Trace (Outbound.Move setup) s.outbound (burstsOf now as.flatten) s₁.outbound ∧
        (∀ b ∈ burstsOf now as.flatten, b.tx ∈ s.burstActive.values) ∧
        (∀ e' ∈ e :: l, e' ∈ s.burstActive.entries ∧ s₁.burstActive.get? e'.1 = some e'.2) ∧
        ((e :: l).map Prod.fst).Nodup) →
      (pollActive setup now e).Yields s₁ fun outcome s₂ =>
        (∀ es, outcome = .ok es → s₂.burstQueue = s.burstQueue ∧
          Trace (Outbound.Move setup) s.outbound (burstsOf now (as ++ [es]).flatten) s₂.outbound ∧
          (∀ b ∈ burstsOf now (as ++ [es]).flatten, b.tx ∈ s.burstActive.values) ∧
          (∀ e' ∈ l, e' ∈ s.burstActive.entries ∧ s₂.burstActive.get? e'.1 = some e'.2) ∧
          (l.map Prod.fst).Nodup) ∧
        ∀ x, outcome = .error x → s₂.burstQueue = s.burstQueue ∧ ∃ retries,
          Trace (Outbound.Move setup) s.outbound retries s₂.outbound ∧
          ∀ b ∈ retries, b.tx ∈ s.burstActive.values := by
    rintro as e l s₁ ⟨hqueue, htrace, hbursts, hactive, hnodup⟩
    obtain ⟨he, hget⟩ := hactive e List.mem_cons_self
    have hmem : e.2 ∈ s.burstActive.values := List.mem_map_of_mem he
    refine Yields.mono (pollActive_yields hget) fun outcome s₂ ⟨hqueue₂, hothers, hok, herror⟩ => ?_
    refine ⟨fun es hes => ⟨hqueue₂.trans hqueue, ?_, ?_, fun e' he' => ?_,
      (List.nodup_cons.mp hnodup).2⟩,
      fun x hx => ⟨hqueue₂.trans hqueue, _, htrace.trans_silent (herror x hx), hbursts⟩⟩
    · rw [burstsOf_snoc]
      exact htrace.trans (hok es hes).1
    · intro b hb
      rw [burstsOf_snoc, List.mem_append] at hb
      rcases hb with hb | hb
      · exact hbursts b hb
      · exact (hok es hes).2 b hb ▸ hmem
    · have hne : e'.1 ≠ e.1 := fun heq =>
        (List.nodup_cons.mp hnodup).1 (heq ▸ List.mem_map_of_mem he')
      obtain ⟨hentry, hget'⟩ := hactive e' (List.mem_cons_of_mem _ he')
      exact ⟨hentry, (hothers e'.1 hne).trans hget'⟩
  refine Yields.get_bind (Yields.mono (Yields.mapM
    (I := fun as l s₁ => s₁.burstQueue = s.burstQueue ∧
      Trace (Outbound.Move setup) s.outbound (burstsOf now as.flatten) s₁.outbound ∧
      (∀ b ∈ burstsOf now as.flatten, b.tx ∈ s.burstActive.values) ∧
      (∀ e ∈ l, e ∈ s.burstActive.entries ∧ s₁.burstActive.get? e.1 = some e.2) ∧
      (l.map Prod.fst).Nodup)
    (E := fun _ s₁ => s₁.burstQueue = s.burstQueue ∧ ∃ retries,
      Trace (Outbound.Move setup) s.outbound retries s₁.outbound ∧
      ∀ b ∈ retries, b.tx ∈ s.burstActive.values) hstep s.burstActive.entries [] s ?_)
    fun outcome s' h => ?_)
  · exact ⟨rfl, Trace.refl _, fun _ hb => absurd hb List.not_mem_nil,
      fun e he => ⟨he, OrderedDict.get?_eq_some_iff.mpr he⟩, s.burstActive.nodup_keys⟩
  · cases outcome with
    | ok as =>
      obtain ⟨hqueue, htrace, hbursts, -⟩ := h.1 as rfl
      exact ⟨hqueue, _, htrace, hbursts, fun as' has' =>
        by rw [Except.ok.inj has', List.nil_append]⟩
    | error x =>
      obtain ⟨hqueue, retries, htrace, hretries⟩ := h.2 x rfl
      exact ⟨hqueue, retries, htrace, hretries, nofun⟩

/-- A transaction is the first one of its peer in the queue. -/
def FirstOfPeer (queue : List BurstTx) (tx : BurstTx) : Prop :=
  tx ∈ queue ∧ ∀ tx' ∈ queue, tx'.peer = tx.peer → tx.Before tx'

theorem pollAllQueued_yields {s : APRSAdapter} (hnodup : s.burstQueue.Nodup) :
    (pollAllQueued setup now).Yields s fun outcome s' => ∃ as, outcome = .ok as ∧
      Trace (Outbound.Move setup) s.outbound (burstsOf now as.flatten) s'.outbound ∧
      ∀ b ∈ burstsOf now as.flatten, FirstOfPeer s.burstQueue b.tx := by
  -- The candidates that are left are still queued; the peers of the others must wait.
  have hstep : ∀ as (tx : BurstTx) l s₁,
      (Trace (Outbound.Move setup) s.outbound (burstsOf now as.flatten) s₁.outbound ∧
        (∀ b ∈ burstsOf now as.flatten, FirstOfPeer s.burstQueue b.tx) ∧
        (tx :: l).Pairwise BurstTx.Before ∧ (tx :: l).Nodup ∧
        (∀ tx' ∈ tx :: l, tx' ∈ s.burstQueue ∧ tx' ∈ s₁.burstQueue) ∧
        (∀ tx' ∈ s.burstQueue, tx' ∉ tx :: l →
          tx'.peer ∈ s₁.burstActive.keys ∨ ¬s₁.outbound.Clear setup tx'.peer now)) →
      (pollQueued setup now tx).Yields s₁ fun outcome s₂ =>
        (∀ es, outcome = .ok es →
          Trace (Outbound.Move setup) s.outbound (burstsOf now (as ++ [es]).flatten) s₂.outbound ∧
          (∀ b ∈ burstsOf now (as ++ [es]).flatten, FirstOfPeer s.burstQueue b.tx) ∧
          l.Pairwise BurstTx.Before ∧ l.Nodup ∧
          (∀ tx' ∈ l, tx' ∈ s.burstQueue ∧ tx' ∈ s₂.burstQueue) ∧
          (∀ tx' ∈ s.burstQueue, tx' ∉ l →
            tx'.peer ∈ s₂.burstActive.keys ∨ ¬s₂.outbound.Clear setup tx'.peer now)) ∧
        ∀ e, outcome = .error e → False := by
    rintro as tx l s₁ ⟨htrace, hfirst, hsorted, hnodup', hqueued, hwait⟩
    obtain ⟨hbefore, hsorted'⟩ := List.pairwise_cons.mp hsorted
    obtain ⟨hnotMem, hnodup''⟩ := List.nodup_cons.mp hnodup'
    obtain ⟨htx, htx₁⟩ := hqueued tx List.mem_cons_self
    have hqueued' : ∀ tx' ∈ l, tx' ∈ s.burstQueue ∧ tx' ∈ s₁.burstQueue := fun tx' h =>
      hqueued tx' (List.mem_cons_of_mem _ h)
    have hrest : ∀ tx' ∈ s.burstQueue, tx' ∉ l → tx' = tx ∨ tx' ∉ tx :: l := by
      intro tx' _ hl
      by_cases heq : tx' = tx
      · exact .inl heq
      · exact .inr fun h => (List.mem_cons.mp h).elim heq hl
    refine Yields.mono (pollQueued_yields htx₁) fun outcome s₂ hs₂ => ?_
    rcases hs₂ with ⟨rfl, rfl, hskip⟩ | ⟨rfl, hidle, hclear, hmove, rfl⟩
    · refine ⟨fun es hes => ?_, nofun⟩
      obtain rfl : [] = es := Except.ok.inj hes
      rw [burstsOf_snoc, show burstsOf now [] = [] from rfl, List.append_nil]
      refine ⟨htrace, hfirst, hsorted', hnodup'', hqueued', fun tx' htx' hl => ?_⟩
      rcases hrest tx' htx' hl with rfl | hout
      · exact hskip
      · exact hwait tx' htx' hout
    · refine ⟨fun es hes => ?_, nofun⟩
      obtain rfl : [.frame tx tx.packets] = es := Except.ok.inj hes
      rw [burstsOf_snoc, show burstsOf now [.frame tx tx.packets] =
        [⟨now, tx, tx.packets⟩] from rfl]
      refine ⟨htrace.trans (Trace.single hmove), fun b hb => ?_, hsorted', hnodup'',
        fun tx' htx' => ⟨(hqueued' tx' htx').1, ?_⟩, fun tx' htx' hl => ?_⟩
      · rcases List.mem_append.mp hb with hb | hb
        · exact hfirst b hb
        rw [List.mem_singleton.mp hb]
        refine ⟨htx, fun tx' htx' hpeer => ?_⟩
        by_cases hl : tx' ∈ tx :: l
        · rcases List.mem_cons.mp hl with rfl | hl
          · exact .refl _
          · exact hbefore tx' hl
        · -- The peer of a candidate that was passed over has to wait, and so has this one.
          rcases hwait tx' htx' hl with hbusy | hrecent
          · exact absurd (hpeer ▸ hbusy) hidle
          · exact absurd (hpeer ▸ hclear) hrecent
      · exact (List.mem_erase_of_ne (ne_of_mem_of_not_mem htx' hnotMem)).mpr (hqueued' tx' htx').2
      · by_cases hpeer : tx'.peer = tx.peer
        · refine .inl (OrderedDict.mem_keys_iff.mpr ⟨tx.started (now + setup.config.ackTimeout),
            ?_⟩)
          rw [hpeer]
          exact OrderedDict.get?_set_self _ _ _
        · rcases hrest tx' htx' hl with rfl | hout
          · exact absurd rfl hpeer
          · refine (hwait tx' htx' hout).imp (fun h => ?_) fun h hclear' => h fun last hlast => ?_
            · obtain ⟨v, hv⟩ := OrderedDict.mem_keys_iff.mp h
              exact OrderedDict.mem_keys_iff.mpr ⟨v, (OrderedDict.get?_set_of_ne hpeer).trans hv⟩
            · refine hclear' last ?_
              exact (OrderedDict.get?_set_of_ne hpeer).trans hlast
  refine Yields.get_bind (Yields.mono (Yields.mapM
    (I := fun as l s₁ =>
      Trace (Outbound.Move setup) s.outbound (burstsOf now as.flatten) s₁.outbound ∧
      (∀ b ∈ burstsOf now as.flatten, FirstOfPeer s.burstQueue b.tx) ∧
      l.Pairwise BurstTx.Before ∧ l.Nodup ∧
      (∀ tx ∈ l, tx ∈ s.burstQueue ∧ tx ∈ s₁.burstQueue) ∧
      (∀ tx ∈ s.burstQueue, tx ∉ l →
        tx.peer ∈ s₁.burstActive.keys ∨ ¬s₁.outbound.Clear setup tx.peer now))
    (E := fun _ _ => False) hstep (candidates s.burstQueue) [] s ?_) fun outcome s' h => ?_)
  · have hperm := candidates_perm s.burstQueue
    exact ⟨Trace.refl _, fun _ hb => absurd hb List.not_mem_nil, candidates_pairwise _,
      hperm.nodup_iff.mpr hnodup, fun tx htx => ⟨hperm.mem_iff.mp htx, hperm.mem_iff.mp htx⟩,
      fun tx htx hout => absurd (hperm.mem_iff.mpr htx) hout⟩
  · cases outcome with
    | ok as =>
      obtain ⟨htrace, hfirst, -⟩ := h.1 as rfl
      exact ⟨as, rfl, htrace, hfirst⟩
    | error e => exact (h.2 e rfl).elim

variable (setup now) in
/-- A `poll` retries active transactions, and starts transactions that are the first of their
peer in the queue. When it raises, nothing was started. -/
theorem pollEmissions_trace {s : APRSAdapter} (hnodup : s.burstQueue.Nodup) :
    (pollEmissions setup now).Yields s fun outcome s' => ∃ retries starts : List Burst,
      Trace (Outbound.Move setup) s.outbound (retries ++ starts) s'.outbound ∧
      (∀ b ∈ retries, b.tx ∈ s.burstActive.values) ∧
      (∀ b ∈ starts, FirstOfPeer s.burstQueue b.tx) ∧
      (∀ es, outcome = .ok es → burstsOf now es = retries ++ starts) ∧
      ∀ e, outcome = .error e → starts = [] := by
  have htake : takeImmediate.Yields s fun outcome s' =>
      s'.outbound = s.outbound ∧ ∃ packets, outcome = .ok packets := ⟨rfl, _, rfl⟩
  refine Yields.bind htake (fun immediate s₁ hs₁ => ?_) fun _ _ ⟨_, _, h⟩ => nomatch h
  obtain ⟨hs₁, -⟩ := hs₁
  refine Yields.bind (pollAllProgress_yields s₁) (fun progress s₂ hs₂ => ?_) fun e s₂ hs₂ => ?_
  swap
  · rw [hs₂.1, hs₁]
    exact ⟨[], [], Trace.refl _, fun _ hb => absurd hb List.not_mem_nil,
      fun _ hb => absurd hb List.not_mem_nil, nofun, fun _ _ => rfl⟩
  have hout₂ : s₂.outbound = s.outbound := hs₂.1.trans hs₁
  have hprogress := hs₂.2 progress rfl
  have hactive₂ : s₂.burstActive = s.burstActive := congrArg Outbound.active hout₂
  have hqueue₂ : s₂.burstQueue = s.burstQueue := congrArg Outbound.queue hout₂
  refine Yields.bind (pollAllActive_yields s₂) (fun active s₃ hs₃ => ?_) fun e s₃ hs₃ => ?_
  swap
  · obtain ⟨-, retries, htrace, hretries, -⟩ := hs₃
    rw [hout₂] at htrace
    rw [hactive₂] at hretries
    exact ⟨retries, [], by rwa [List.append_nil], hretries, fun _ hb => absurd hb List.not_mem_nil,
      nofun, fun _ _ => rfl⟩
  obtain ⟨hqueue₃, retries, htrace, hretries, hbursts⟩ := hs₃
  have hbursts := hbursts active rfl
  rw [hout₂] at htrace
  rw [hactive₂] at hretries
  have hqueue : s₃.burstQueue = s.burstQueue := hqueue₃.trans hqueue₂
  refine Yields.bind (pollAllQueued_yields (hqueue ▸ hnodup)) (fun queued s₄ hs₄ => ?_)
    fun e s₄ hs₄ => nomatch hs₄
  obtain ⟨as, has, htrace', hfirst⟩ := hs₄
  obtain rfl : queued = as := Except.ok.inj has
  rw [hqueue] at hfirst
  refine ⟨retries, burstsOf now queued.flatten, htrace.trans htrace', hretries, hfirst,
    fun es hes => ?_, nofun⟩
  obtain rfl : _ = es := Except.ok.inj hes
  rw [burstsOf_append, burstsOf_append, burstsOf_append, burstsOf_controls, hprogress, hbursts,
    List.nil_append, List.nil_append]

end OpenQSP
