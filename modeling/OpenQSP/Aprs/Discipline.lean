import Mathlib.Tactic.Linarith
import OpenQSP.Aprs.Transmission

/-!
# The discipline of transmission

What the adapter sends in a whole run: how far apart the bursts to a peer are, how often a
transaction is sent, in which order transactions are started, and that a transaction that is held
no more is never sent again.

The facts about everything sent so far are an invariant of the sent bursts and the state together.
A `poll` that raises loses the retries it has made; the invariant counts them as sent.

## Main definitions

* `Outbound.Disciplined` — the invariant
* `burstsAt`, `sentBursts`, `Activates`

## Main results

* `Outbound.Disciplined.move` — one move
* `runState_disciplined` — a run
* **`transmission_discipline`**
-/

namespace OpenQSP

open APRSAdapter Method

variable {setup : Setup} {o o' : Outbound} {b : Option Burst} {log : List Burst}

namespace Outbound

/-! ### What is held after a move -/

theorem mem_held {tx : BurstTx} : tx ∈ o.held ↔ tx ∈ o.queue ∨ tx ∈ o.active.values :=
  List.mem_append

theorem active_mem_values {peer : Str} {tx : BurstTx} (h : o.active.get? peer = some tx) :
    tx ∈ o.active.values := List.mem_map.mpr ⟨_, OrderedDict.get?_eq_some_iff.mp h, rfl⟩

theorem Sound.nodup_held_orders (h : o.Sound setup) : (o.held.map (·.order)).Nodup := by
  have horders := h.orders
  rwa [Outbound.parcels, List.map_map] at horders

/-- The active transactions of the other peers, and those that wait, are other ones. -/
theorem Sound.order_ne_of_erase (h : o.Sound setup) {peer : Str} {tx tx' : BurstTx}
    (hactive : o.active.get? peer = some tx)
    (htx' : tx' ∈ o.queue ∨ tx' ∈ (o.active.erase peer).values) : tx'.order ≠ tx.order := by
  have hperm : (o.held.map (·.order)).Perm
      (tx.order :: (o.queue ++ (o.active.erase peer).values).map (·.order)) := by
    have hvalues := (OrderedDict.values_perm_erase hactive).append_left o.queue
    exact (hvalues.trans List.perm_middle).map (·.order)
  have hnodup := hperm.nodup_iff.mp h.nodup_held_orders
  exact fun heq => (List.nodup_cons.mp hnodup).1
    (heq ▸ List.mem_map_of_mem (List.mem_append.mpr htx'))

/-- The other transactions that wait, and the active ones, are other ones. -/
theorem Sound.order_ne_of_queued (h : o.Sound setup) {tx tx' : BurstTx} (hqueued : tx ∈ o.queue)
    (htx' : tx' ∈ o.queue.erase tx ∨ tx' ∈ o.active.values) : tx'.order ≠ tx.order := by
  have hperm : (o.held.map (·.order)).Perm
      (tx.order :: (o.queue.erase tx ++ o.active.values).map (·.order)) :=
    ((List.perm_cons_erase hqueued).append_right _).map (·.order)
  have hnodup := hperm.nodup_iff.mp h.nodup_held_orders
  exact fun heq => (List.nodup_cons.mp hnodup).1
    (heq ▸ List.mem_map_of_mem (List.mem_append.mpr htx'))

theorem order_lt_of_held (h : o.Sound setup) {tx : BurstTx} (htx : tx ∈ o.held) :
    tx.order < o.nextOrder := h.order_lt tx.parcel (List.mem_map_of_mem htx)

/-! ### The invariant -/

/-- What was sent so far, together with the outbound half. -/
structure Disciplined (setup : Setup) (log : List Burst) (o : Outbound) : Prop where
  sound : o.Sound setup
  /-- The bursts to a peer are far enough apart. -/
  spaced : log.Pairwise fun b b' =>
    b.tx.peer = b'.tx.peer → setup.config.minInterval ≤ b'.time - b.time
  last : ∀ b ∈ log, ∃ last, o.lastSend.get? b.tx.peer = some last ∧ b.time ≤ last
  /-- Every burst of a transaction has a higher number than the ones before. -/
  counted : log.Pairwise fun b b' => b.tx.order = b'.tx.order → b.tx.attempts < b'.tx.attempts
  bounded : ∀ b ∈ log, b.tx.attempts < setup.config.maxAttempts
  whole : ∀ b ∈ log, b.tx.attempts = 0 → b.packets = b.tx.packets
  begun : ∀ b ∈ log, ∃ b₀ ∈ log, b₀.tx.order = b.tx.order ∧ b₀.tx.attempts = 0
  active_begun : ∀ tx ∈ o.active.values, ∃ b₀ ∈ log, b₀.tx.order = tx.order ∧ b₀.tx.attempts = 0
  queued : ∀ tx ∈ o.queue, tx.attempts = 0
  earlier : ∀ b ∈ log, ∀ tx ∈ o.held, b.tx.order = tx.order → b.tx.attempts < tx.attempts
  order_lt : ∀ b ∈ log, b.tx.order < o.nextOrder
  /-- A transaction ends once, and then it is held no more. -/
  ended : (o.endings.map (·.order)).Nodup
  ended_lt : ∀ e ∈ o.endings, e.order < o.nextOrder
  ended_held : ∀ e ∈ o.endings, ∀ tx ∈ o.held, tx.order ≠ e.order

theorem Disciplined.empty : Disciplined setup [] ⟨[], .empty, 0, .empty, [], [], [], .empty⟩ where
  sound := .empty
  spaced := .nil
  last _ h := absurd h List.not_mem_nil
  counted := .nil
  bounded _ h := absurd h List.not_mem_nil
  whole _ h := absurd h List.not_mem_nil
  begun _ h := absurd h List.not_mem_nil
  active_begun _ h := absurd h List.not_mem_nil
  queued _ h := absurd h List.not_mem_nil
  earlier _ h := absurd h List.not_mem_nil
  order_lt _ h := absurd h List.not_mem_nil
  ended := List.nodup_nil
  ended_lt _ h := absurd h List.not_mem_nil
  ended_held _ h := absurd h List.not_mem_nil

namespace Disciplined

/-- Transactions may leave, and others may be adjusted, while nothing is sent. -/
theorem of_quiet (h : o.Disciplined setup log) (hsound : o'.Sound setup)
    (hnext : o.nextOrder ≤ o'.nextOrder) (hlast : o'.lastSend = o.lastSend)
    (hendings : o'.endings = o.endings)
    (hactive : ∀ tx' ∈ o'.active.values, ∃ tx ∈ o.active.values, tx'.order = tx.order)
    (hqueue : ∀ tx' ∈ o'.queue, tx'.attempts = 0)
    (hheld : ∀ tx' ∈ o'.held, (∃ tx ∈ o.held, tx'.order = tx.order ∧ tx'.attempts = tx.attempts) ∨
      o.nextOrder ≤ tx'.order) :
    o'.Disciplined setup log where
  sound := hsound
  spaced := h.spaced
  last := hlast ▸ h.last
  counted := h.counted
  bounded := h.bounded
  whole := h.whole
  begun := h.begun
  active_begun tx' htx' := by
    obtain ⟨tx, htx, horder⟩ := hactive tx' htx'
    rw [horder]
    exact h.active_begun tx htx
  queued := hqueue
  earlier b hb tx' htx' horder' := by
    rcases hheld tx' htx' with ⟨tx, htx, horder, hattempts⟩ | hnew
    · rw [hattempts]
      exact h.earlier b hb tx htx (horder'.trans horder)
    · have hlt := h.order_lt b hb
      omega
  order_lt b hb := (h.order_lt b hb).trans_le hnext
  ended := hendings ▸ h.ended
  ended_lt e he := (h.ended_lt e (hendings ▸ he)).trans_le hnext
  ended_held e he tx' htx' := by
    rw [hendings] at he
    rcases hheld tx' htx' with ⟨tx, htx, horder, -⟩ | hnew
    · rw [horder]
      exact h.ended_held e he tx htx
    · have hlt := h.ended_lt e he
      omega

/-- A burst of a held transaction is sent, and its attempt is counted. -/
theorem sent (h : o.Disciplined setup log) (hsound : o'.Sound setup) {tx : BurstTx} (tx' : BurstTx)
    {now : ℚ} {packets : List OutboundPacket} (hnext : o'.nextOrder = o.nextOrder)
    (hclear : o.Clear setup tx.peer now) (hlast : o'.lastSend = o.lastSend.set tx.peer now)
    (hendings : o'.endings = o.endings) (htx : tx ∈ o.held)
    (hattempts : tx.attempts < setup.config.maxAttempts)
    (hwhole : tx.attempts = 0 → packets = tx.packets)
    (hbegun : tx.attempts = 0 ∨ ∃ b₀ ∈ log, b₀.tx.order = tx.order ∧ b₀.tx.attempts = 0)
    (horder : tx'.order = tx.order) (hcount : tx.attempts < tx'.attempts)
    (hactive : ∀ v ∈ o'.active.values, v = tx' ∨ v ∈ o.active.values)
    (hqueue : ∀ v ∈ o'.queue, v ∈ o.queue)
    (hheld : ∀ v ∈ o'.held, v = tx' ∨ (v ∈ o.held ∧ v.order ≠ tx.order)) :
    o'.Disciplined setup (log ++ [⟨now, tx, packets⟩]) := by
  have hbegun' : ∃ b₀ ∈ log ++ [(⟨now, tx, packets⟩ : Burst)], b₀.tx.order = tx.order ∧
      b₀.tx.attempts = 0 := by
    rcases hbegun with hzero | ⟨b₀, hb₀, horder₀, hzero⟩
    · exact ⟨_, List.mem_append_right _ (List.mem_singleton_self _), rfl, hzero⟩
    · exact ⟨b₀, List.mem_append_left _ hb₀, horder₀, hzero⟩
  have hmem : ∀ {b}, b ∈ log ++ [(⟨now, tx, packets⟩ : Burst)] → b ∈ log ∨ b = ⟨now, tx, packets⟩ :=
    fun hb => (List.mem_append.mp hb).imp_right List.mem_singleton.mp
  have hspaced : ∀ b ∈ log, b.tx.peer = tx.peer → setup.config.minInterval ≤ now - b.time := by
    intro b hb hpeer
    obtain ⟨last, hget, hle⟩ := h.last b hb
    have := hclear last (hpeer ▸ hget)
    linarith
  refine ⟨hsound, ?_, fun b hb => ?_, ?_, fun b hb => ?_, fun b hb => ?_, fun b hb => ?_,
    fun v hv => ?_, fun v hv => h.queued v (hqueue v hv), fun b hb v hv hv' => ?_, fun b hb => ?_,
    hendings ▸ h.ended, fun e he => hnext ▸ h.ended_lt e (hendings ▸ he), fun e he v hv => ?_⟩
  · refine List.pairwise_append.mpr ⟨h.spaced, List.pairwise_singleton _ _,
      fun b hb b' hb' hpeer => ?_⟩
    rw [List.mem_singleton.mp hb'] at hpeer ⊢
    exact hspaced b hb hpeer
  · rw [hlast]
    rcases hmem hb with hb | rfl
    · by_cases hpeer : b.tx.peer = tx.peer
      · refine ⟨now, by rw [hpeer, OrderedDict.get?_set_self], ?_⟩
        have hle := hspaced b hb hpeer
        have hpos := setup.config.minInterval_nonneg
        linarith
      · rw [OrderedDict.get?_set_of_ne hpeer]
        exact h.last b hb
    · exact ⟨now, OrderedDict.get?_set_self _ _ _, le_rfl⟩
  · refine List.pairwise_append.mpr ⟨h.counted, List.pairwise_singleton _ _,
      fun b hb b' hb' hsame => ?_⟩
    rw [List.mem_singleton.mp hb'] at hsame ⊢
    exact h.earlier b hb tx htx hsame
  · rcases hmem hb with hb | rfl
    · exact h.bounded b hb
    · exact hattempts
  · rcases hmem hb with hb | rfl
    · exact h.whole b hb
    · exact hwhole
  · rcases hmem hb with hb | rfl
    · obtain ⟨b₀, hb₀, hfirst⟩ := h.begun b hb
      exact ⟨b₀, List.mem_append_left _ hb₀, hfirst⟩
    · exact hbegun'
  · rcases hactive v hv with rfl | hv
    · rw [horder]
      exact hbegun'
    · obtain ⟨b₀, hb₀, hfirst⟩ := h.active_begun v hv
      exact ⟨b₀, List.mem_append_left _ hb₀, hfirst⟩
  · rcases hheld v hv with rfl | ⟨hv, hne⟩
    · rcases hmem hb with hb | rfl
      · exact (h.earlier b hb tx htx (hv'.trans horder)).trans hcount
      · exact hcount
    · rcases hmem hb with hb | rfl
      · exact h.earlier b hb v hv hv'
      · exact absurd hv'.symm hne
  · rw [hnext]
    rcases hmem hb with hb | rfl
    · exact h.order_lt b hb
    · exact order_lt_of_held h.sound htx
  · rw [hendings] at he
    rcases hheld v hv with rfl | ⟨hv, -⟩
    · rw [horder]
      exact h.ended_held e he tx htx
    · exact h.ended_held e he v hv

/-- Transactions leave. -/
theorem drop (h : o.Disciplined setup log) (p : BurstTx → Bool) (q : Str × BurstTx → Bool) :
    ({ o with queue := o.queue.filter p, active := o.active.filter q } : Outbound).Disciplined setup
      log := by
  refine h.of_quiet (h.sound.move (.drop o p q)) le_rfl rfl rfl
    (fun v hv => ⟨v, OrderedDict.mem_values_of_filter hv, rfl⟩)
    (fun v hv => h.queued v (List.mem_of_mem_filter hv)) fun v hv => .inl ⟨v, ?_, rfl, rfl⟩
  exact mem_held.mpr ((mem_held.mp hv).imp List.mem_of_mem_filter OrderedDict.mem_values_of_filter)

/-- A transaction ends. -/
theorem finish (h : o.Disciplined setup log) {peer : Str} {tx : BurstTx}
    (active : o.active.get? peer = some tx) (acknowledged : Bool) :
    (o.finished peer tx acknowledged).Disciplined setup log := by
  have hdrop : ({ o with active := o.active.erase peer } : Outbound).Disciplined setup log := by
    have hfilter := h.drop (fun _ => true) fun e => decide (e.1 ≠ peer)
    rwa [List.filter_true] at hfilter
  have htx := mem_held.mpr (.inr (active_mem_values active))
  have hmem : ∀ {e}, e ∈ o.endings ++ [(⟨tx.order, tx.delivery, acknowledged⟩ : Ending)] →
      e ∈ o.endings ∨ e = ⟨tx.order, tx.delivery, acknowledged⟩ :=
    fun he => (List.mem_append.mp he).imp_right List.mem_singleton.mp
  refine { hdrop with
    sound := h.sound.move (.finish o active acknowledged)
    ended := ?_
    ended_lt := fun e he => ?_
    ended_held := fun e he v hv => ?_ }
  · show ((o.endings ++ [_]).map _).Nodup
    rw [List.map_append, List.map_singleton]
    refine h.ended.append (List.nodup_singleton _) fun order hold hnew => ?_
    obtain ⟨e, he, rfl⟩ := List.mem_map.mp hold
    exact h.ended_held e he tx htx (List.mem_singleton.mp hnew).symm
  · rcases hmem he with he | rfl
    · exact h.ended_lt e he
    · exact order_lt_of_held h.sound htx
  · rcases hmem he with he | rfl
    · exact hdrop.ended_held e he v hv
    · exact h.sound.order_ne_of_erase active (mem_held.mp hv)

/-- An active transaction was sent before. -/
theorem active_attempts (h : o.Disciplined setup log) {tx : BurstTx} (htx : tx ∈ o.active.values) :
    0 < tx.attempts := by
  obtain ⟨b₀, hb₀, horder, -⟩ := h.active_begun tx htx
  exact Nat.zero_lt_of_lt (h.earlier b₀ hb₀ tx (mem_held.mpr (.inr htx)) horder)

/-- Every move keeps the discipline. -/
theorem move (h : o.Disciplined setup log) (hmove : Move setup o b o') :
    o'.Disciplined setup (log ++ b.toList) := by
  have hsound := h.sound.move hmove
  cases hmove with
  | drop p q =>
    rw [Option.toList_none, List.append_nil]
    exact h.drop p q
  | base =>
    rw [Option.toList_none, List.append_nil]
    exact h.of_quiet hsound le_rfl rfl rfl (fun v hv => ⟨v, hv, rfl⟩) h.queued
      fun v hv => .inl ⟨v, hv, rfl, rfl⟩
  | @enqueue tx order_eq attempts_eq _ _ _ _ _ =>
    rw [Option.toList_none, List.append_nil]
    refine h.of_quiet hsound (Nat.le_succ _) rfl rfl (fun v hv => ⟨v, hv, rfl⟩) (fun v hv => ?_)
      fun v hv => ?_
    · rcases List.mem_append.mp hv with hv | hv
      · exact h.queued v hv
      · rw [List.mem_singleton.mp hv]
        exact attempts_eq
    · rcases mem_held.mp hv with hv | hv
      · rcases List.mem_append.mp hv with hv | hv
        · exact .inl ⟨v, mem_held.mpr (.inl hv), rfl, rfl⟩
        · rw [List.mem_singleton.mp hv]
          exact .inr order_eq.ge
      · exact .inl ⟨v, mem_held.mpr (.inr hv), rfl, rfl⟩
  | @adjust peer tx tx' active parcel_eq attempts_eq =>
    rw [Option.toList_none, List.append_nil]
    have hactive := active_mem_values active
    have horder : tx'.order = tx.order := congrArg Parcel.order parcel_eq
    have hvalues : ∀ v ∈ (o.active.set peer tx').values, v = tx' ∨ v ∈ o.active.values :=
      fun v hv => (OrderedDict.mem_values_set.mp hv).imp_right OrderedDict.mem_values_of_filter
    refine h.of_quiet hsound le_rfl rfl rfl (fun v hv => ?_) h.queued fun v hv => .inl ?_
    · rcases hvalues v hv with rfl | hv
      · exact ⟨tx, hactive, horder⟩
      · exact ⟨v, hv, rfl⟩
    · rcases mem_held.mp hv with hv | hv
      · exact ⟨v, mem_held.mpr (.inl hv), rfl, rfl⟩
      · rcases hvalues v hv with rfl | hv
        · exact ⟨tx, mem_held.mpr (.inr hactive), horder, attempts_eq⟩
        · exact ⟨v, mem_held.mpr (.inr hv), rfl, rfl⟩
  | finish active acknowledged =>
    rw [Option.toList_none, List.append_nil]
    exact h.finish active acknowledged
  | @retry peer tx now indices active attempts_lt clear =>
    have hactive := active_mem_values active
    have hpeer : tx.peer = peer := h.sound.peers _ (OrderedDict.get?_eq_some_iff.mp active)
    have hpos := h.active_attempts hactive
    refine h.sent hsound (tx.retried (now + setup.config.ackTimeout)) rfl (hpeer.symm ▸ clear)
      (hpeer.symm ▸ rfl) rfl (mem_held.mpr (.inr hactive)) attempts_lt (fun hzero =>
        absurd hzero hpos.ne')
      (.inr (h.active_begun tx hactive)) rfl (Nat.lt_succ_self _)
      (fun v hv => (OrderedDict.mem_values_set.mp hv).imp_right OrderedDict.mem_values_of_filter)
      (fun v hv => hv) fun v hv => ?_
    rcases mem_held.mp hv with hv | hv
    · exact .inr ⟨mem_held.mpr (.inl hv), h.sound.order_ne_of_erase active (.inl hv)⟩
    · refine (OrderedDict.mem_values_set.mp hv).imp_right fun hv => ?_
      exact ⟨mem_held.mpr (.inr (OrderedDict.mem_values_of_filter hv)),
        h.sound.order_ne_of_erase active (.inr hv)⟩
  | @start tx now queued idle clear =>
    have hzero := h.queued tx queued
    have hvalues : ∀ v ∈ (o.active.set tx.peer (tx.started (now + setup.config.ackTimeout))).values,
        v = tx.started (now + setup.config.ackTimeout) ∨ v ∈ o.active.values := fun v hv =>
      (OrderedDict.mem_values_set.mp hv).imp_right OrderedDict.mem_values_of_filter
    refine h.sent hsound (tx.started (now + setup.config.ackTimeout)) rfl clear rfl rfl
      (mem_held.mpr (.inl queued)) (hzero ▸ setup.config.maxAttempts_pos) (fun _ => rfl)
        (.inl hzero) rfl
      (hzero ▸ Nat.zero_lt_one) hvalues (fun v hv => List.mem_of_mem_erase hv) fun v hv => ?_
    rcases mem_held.mp hv with hv | hv
    · exact .inr ⟨mem_held.mpr (.inl (List.mem_of_mem_erase hv)),
        h.sound.order_ne_of_queued queued (.inl hv)⟩
    · refine (hvalues v hv).imp_right fun hv => ?_
      exact ⟨mem_held.mpr (.inr hv), h.sound.order_ne_of_queued queued (.inr hv)⟩

theorem trace {log' : List Burst} (h : o.Disciplined setup log)
    (htrace : Trace (Move setup) o log' o') : o'.Disciplined setup (log ++ log') :=
  htrace.invariant (I := fun log o => o.Disciplined setup log) h fun _ _ _ _ h hmove => h.move hmove

end Disciplined

/-! ### Starting -/

/-- A transaction that waited is now the active one of its peer. -/
def Activates (o o' : Outbound) (tx : BurstTx) : Prop :=
  tx ∈ o.queue ∧ ∃ tx' ∈ o'.active.values, tx'.order = tx.order

/-- A transaction that becomes active is sent. -/
theorem active_of_trace (htrace : Trace (Move setup) o log o') : ∀ tx' ∈ o'.active.values,
    (∃ tx ∈ o.active.values, tx.order = tx'.order) ∨ ∃ b ∈ log, b.tx.order = tx'.order := by
  refine htrace.since (I := fun log o' => ∀ tx' ∈ o'.active.values,
    (∃ tx ∈ o.active.values, tx.order = tx'.order) ∨ ∃ b ∈ log, b.tx.order = tx'.order)
    (fun tx htx => .inl ⟨tx, htx, rfl⟩) fun log o₁ e o₂ h hmove v hv => ?_
  have hset : ∀ {peer : Str} {tx : BurstTx} (tx' : BurstTx), o₁.active.get? peer = some tx →
      tx'.order = tx.order → v ∈ (o₁.active.set peer tx').values →
      ∃ w ∈ o₁.active.values, w.order = v.order := by
    intro peer tx tx' hactive horder hv
    rcases OrderedDict.mem_values_set.mp hv with rfl | hv
    · exact ⟨tx, active_mem_values hactive, horder.symm⟩
    · exact ⟨v, OrderedDict.mem_values_of_filter hv, rfl⟩
  have hlog : (∃ w ∈ o₁.active.values, w.order = v.order) →
      (∃ tx ∈ o.active.values, tx.order = v.order) ∨ ∃ b ∈ log ++ e.toList,
        b.tx.order = v.order := by
    rintro ⟨w, hw, horder⟩
    rw [← horder]
    exact (h w hw).imp_right fun ⟨b, hb, heq⟩ => ⟨b, List.mem_append_left _ hb, heq⟩
  cases hmove with
  | drop p q => exact hlog ⟨v, OrderedDict.mem_values_of_filter hv, rfl⟩
  | base => exact hlog ⟨v, hv, rfl⟩
  | enqueue => exact hlog ⟨v, hv, rfl⟩
  | adjust active parcel_eq _ => exact hlog (hset _ active (congrArg Parcel.order parcel_eq) hv)
  | finish => exact hlog ⟨v, OrderedDict.mem_values_of_filter hv, rfl⟩
  | @retry peer tx now indices active attempts_lt clear =>
    exact hlog (hset (tx.retried (now + setup.config.ackTimeout)) active rfl hv)
  | @start tx now queued idle clear =>
    rcases OrderedDict.mem_values_set.mp hv with rfl | hv
    · exact .inr ⟨⟨now, tx, tx.packets⟩, List.mem_append_right _ (List.mem_singleton_self _), rfl⟩
    · exact hlog ⟨v, OrderedDict.mem_values_of_filter hv, rfl⟩

end Outbound

/-- What becomes active is the first of its peer in the queue. -/
theorem activates_first {s : APRSAdapter} (h : s.outbound.Sound setup) {call : Call} {tx : BurstTx}
    (hactivates : s.outbound.Activates (step setup s call).outbound tx) :
    FirstOfPeer s.burstQueue tx := by
  obtain ⟨hqueued, tx', htx', horder⟩ := hactivates
  have hother : ∀ {v : BurstTx}, v ∈ s.burstActive.values → v.order ≠ tx.order := fun hv =>
    h.order_ne_of_queued hqueued (.inr hv)
  obtain ⟨retries, starts, htrace, hretries, hstarts, -⟩ := step_trace h call
  rcases Outbound.active_of_trace htrace tx' htx' with ⟨v, hv, hvorder⟩ | ⟨b, hb, hborder⟩
  · exact absurd (hvorder.trans horder) (hother hv)
  rcases List.mem_append.mp hb with hb | hb
  · exact absurd (hborder.trans horder) (hother (hretries b hb))
  · have hfirst := hstarts b hb
    have hsame : b.tx = tx := List.inj_on_of_nodup_map h.nodup_held_orders
      (Outbound.mem_held.mpr (.inl hfirst.1)) (Outbound.mem_held.mpr (.inl hqueued))
      (hborder.trans horder)
    exact hsame ▸ hfirst

/-- What a call sends is of a transaction that the adapter held before. -/
theorem bursts_held {s : APRSAdapter} (h : s.outbound.Sound setup) {call : Call} {b : Burst}
    (hb : b ∈ call.bursts setup s) : b.tx ∈ s.outbound.held := by
  obtain ⟨retries, starts, -, hretries, hstarts, hbursts⟩ := step_trace h call
  rcases hbursts with hbursts | ⟨hnone, -⟩
  · rw [hbursts] at hb
    refine Outbound.mem_held.mpr ((List.mem_append.mp hb).symm.imp (fun hb => ?_) (hretries b))
    exact (hstarts b hb).1
  · rw [hnone] at hb
    exact absurd hb List.not_mem_nil

/-! ### Runs -/

/-- What call `i` of a run sends. -/
def burstsAt (setup : Setup) (core : CoreState) (calls : List Call) (i : ℕ) : List Burst :=
  (calls[i]?).elim [] fun call => call.bursts setup (runState setup core calls i)

/-- What the first `i` calls of a run send. -/
def sentBursts (setup : Setup) (core : CoreState) (calls : List Call) (i : ℕ) : List Burst :=
  (List.range i).flatMap (burstsAt setup core calls)

/-- Some bursts were lost, but no first one. -/
structure Shows (shown log : List Burst) : Prop where
  sublist : shown.Sublist log
  first : ∀ b ∈ log, b.tx.attempts = 0 → b ∈ shown

theorem Shows.append {shown log shown' log' : List Burst} (h : Shows shown log)
    (h' : Shows shown' log') : Shows (shown ++ shown') (log ++ log') where
  sublist := h.sublist.append h'.sublist
  first b hb hzero := List.mem_append.mpr ((List.mem_append.mp hb).imp (fun hb =>
    h.first b hb hzero)
    fun hb => h'.first b hb hzero)

theorem step_disciplined {s : APRSAdapter} (h : s.outbound.Disciplined setup log) (call : Call) :
    ∃ log', (step setup s call).outbound.Disciplined setup (log ++ log') ∧
      Shows (call.bursts setup s) log' := by
  obtain ⟨retries, starts, htrace, hretries, -, hbursts⟩ := step_trace h.sound call
  refine ⟨_, h.trace htrace, ?_⟩
  rcases hbursts with hbursts | ⟨hnone, rfl⟩
  · rw [hbursts]
    exact ⟨List.Sublist.refl _, fun _ hb _ => hb⟩
  · rw [hnone, List.append_nil]
    exact ⟨List.nil_sublist _, fun b hb hzero =>
      absurd hzero (h.active_attempts (hretries b hb)).ne'⟩

section Runs

variable {core : CoreState} {calls : List Call}

theorem burstsAt_of_lt {i : ℕ} (h : i < calls.length) :
    burstsAt setup core calls i = calls[i].bursts setup (runState setup core calls i) := by
  rw [burstsAt, List.getElem?_eq_getElem h]
  rfl

variable (setup core) in
theorem runState_disciplined : ∀ i ≤ calls.length, ∃ log,
    (runState setup core calls i).outbound.Disciplined setup log ∧
    Shows (sentBursts setup core calls i) log := by
  intro i
  induction i with
  | zero => exact fun _ => ⟨[], .empty, List.Sublist.refl _, fun _ hb => absurd hb List.not_mem_nil⟩
  | succ i ih =>
    intro hi
    obtain ⟨log, hlog, hshows⟩ := ih (Nat.le_of_succ_le hi)
    obtain ⟨log', hlog', hshows'⟩ := step_disciplined hlog calls[i]
    refine ⟨log ++ log', ?_, ?_⟩
    · rw [runState, stateAt_succ hi]
      exact hlog'
    · rw [sentBursts, List.range_succ, List.flatMap_append, List.flatMap_singleton,
        burstsAt_of_lt hi]
      exact hshows.append hshows'

/-- What is held no more, or has ended, is not sent. -/
theorem not_sent_of_left {i j : ℕ} (hij : i ≤ j) (hj : j < calls.length) {n : ℕ}
    (hn : n < (runState setup core calls i).burstOrder)
    (hleft : ∀ tx ∈ (runState setup core calls i).outbound.held, tx.order ≠ n) :
    ∀ b ∈ burstsAt setup core calls j, b.tx.order ≠ n := by
  intro b hb heq
  rw [burstsAt_of_lt hj] at hb
  have hheld := bursts_held (runState_sound setup core calls j hj.le) hb
  obtain ⟨tx, htx, hparcel⟩ := (runState_later hij hj.le).held_old b.tx hheld (heq.symm ▸ hn)
  exact hleft tx htx ((congrArg Parcel.order hparcel).trans heq)

/-- The bursts of one transaction. -/
theorem bursts_of_transaction (n : ℕ) :
    ((sentBursts setup core calls calls.length).filter fun b => b.tx.order = n).length ≤
      setup.config.maxAttempts ∧
    ∀ b ∈ ((sentBursts setup core calls calls.length).filter fun b => b.tx.order = n).head?,
      b.packets = b.tx.packets := by
  obtain ⟨log, h, hshows⟩ := runState_disciplined setup core calls.length le_rfl
  set shown := (sentBursts setup core calls calls.length).filter fun b => b.tx.order = n with hshown
  have hmem : ∀ {b}, b ∈ shown → b ∈ log ∧ b.tx.order = n := fun hb =>
    ⟨hshows.sublist.subset (List.mem_of_mem_filter hb), of_decide_eq_true (List.mem_filter.mp hb).2⟩
  -- The numbers of the bursts rise, and all of them are below the limit.
  have hrise : (shown.map fun b => b.tx.attempts).Pairwise (· < ·) := by
    refine List.pairwise_map.mpr (List.Pairwise.imp_of_mem ?_
      ((h.counted.sublist hshows.sublist).filter _))
    exact fun hb hb' hlt => hlt ((hmem hb).2.trans (hmem hb').2.symm)
  constructor
  · have hsub : (shown.map fun b => b.tx.attempts).toFinset ⊆
        Finset.range setup.config.maxAttempts := by
      intro a ha
      obtain ⟨b, hb, rfl⟩ := List.mem_map.mp (List.mem_toFinset.mp ha)
      exact Finset.mem_range.mpr (h.bounded b (hmem hb).1)
    have hcard := Finset.card_le_card hsub
    rwa [List.toFinset_card_of_nodup (hrise.imp Nat.ne_of_lt), Finset.card_range, List.length_map]
      at hcard
  · intro b hb
    -- The first burst of the transaction was not lost, and no other one precedes it.
    have hin : b ∈ shown := List.mem_of_mem_head? hb
    obtain ⟨b₀, hb₀, horder, hzero⟩ := h.begun b (hmem hin).1
    have hin₀ : b₀ ∈ shown := List.mem_filter.mpr
      ⟨hshows.first b₀ hb₀ hzero, decide_eq_true (horder.trans (hmem hin).2)⟩
    refine h.whole b (hmem hin).1 ?_
    obtain ⟨rest, hrest⟩ : ∃ rest, shown = b :: rest := List.head?_eq_some_iff.mp hb
    rw [hrest, List.map_cons] at hrise
    rw [hrest] at hin₀
    rcases List.mem_cons.mp hin₀ with rfl | hin₀
    · exact hzero
    · have hlt := (List.pairwise_cons.mp hrise).1 _ (List.mem_map_of_mem hin₀)
      omega

end Runs

/-- What is reported is the end of a transaction with a delivery. -/
theorem Ending.of_report {endings : List Ending} {r : Report}
    (h : ∃ e ∈ endings, e.report = some r) :
    ∃ e ∈ endings, r.order = some e.order ∧ e.delivery = some r.delivery ∧
      r.delivered = e.acknowledged := by
  obtain ⟨e, he, hreport⟩ := h
  obtain ⟨delivery, hdelivery, rfl⟩ := Option.map_eq_some_iff.mp hreport
  exact ⟨e, he, rfl, hdelivery, rfl⟩

/-- Where transactions end once, they are reported at most once. -/
theorem reports_le_one {endings : List Ending} (h : (endings.map (·.order)).Nodup) (n : ℕ) :
    ((endings.filterMap Ending.report).filter fun r => r.order = some n).length ≤ 1 := by
  have hcount := List.nodup_iff_count_le_one.mp h n
  rw [List.count, List.countP_map] at hcount
  rw [← List.countP_eq_length_filter, List.countP_filterMap]
  refine le_trans (List.countP_mono_left fun e _ he => ?_) hcount
  obtain ⟨r, hreport, horder⟩ : ∃ r, e.report = some r ∧ r.order = some n := by
    cases hreport : e.report with
    | none =>
      rw [hreport] at he
      cases he
    | some r =>
      rw [hreport] at he
      exact ⟨r, rfl, of_decide_eq_true he⟩
  obtain ⟨delivery, -, rfl⟩ := Option.map_eq_some_iff.mp hreport
  exact beq_iff_eq.mpr (Option.some.inj horder)

/-- The transmission discipline of the production adapter, in every run. Any two bursts to one peer
are at least `min_interval` apart. A transaction is sent in at most `max_attempts` bursts, and the
first of them has all its fragments. A transaction that was acknowledged or given up, or that the
adapter held and holds no more, is not sent again. What becomes active is before everything that
waits for its peer: a proactive message is not started while a response waits, and transactions of
one priority are started in the order in which they were queued. The proactive ones are those that
`queue_frame` was asked to queue as such. Core is told about a transaction at most once, that it was
delivered or that it failed, and about nothing else. -/
theorem transmission_discipline (setup : Setup) (core : CoreState) (calls : List Call) :
    ((sentBursts setup core calls calls.length).Pairwise fun b b' =>
      b.tx.peer = b'.tx.peer → setup.config.minInterval ≤ b'.time - b.time) ∧
    (∀ n, ((sentBursts setup core calls calls.length).filter fun b => b.tx.order = n).length ≤
        setup.config.maxAttempts ∧
      ∀ b ∈ ((sentBursts setup core calls calls.length).filter fun b => b.tx.order = n).head?,
        b.packets = b.tx.packets) ∧
    (∀ i j, i ≤ j → j < calls.length → ∀ e ∈ (runState setup core calls i).endings,
      ∀ b ∈ burstsAt setup core calls j, b.tx.order ≠ e.order) ∧
    (∀ i k j, i ≤ k → k ≤ j → j < calls.length →
      ∀ tx ∈ (runState setup core calls i).outbound.held,
        (∀ tx' ∈ (runState setup core calls k).outbound.held, tx'.order ≠ tx.order) →
        ∀ b ∈ burstsAt setup core calls j, b.tx.order ≠ tx.order) ∧
    (∀ i < calls.length, ∀ tx,
      (runState setup core calls i).outbound.Activates
        (runState setup core calls (i + 1)).outbound tx →
      tx.priority = 1 →
      ∀ tx' ∈ (runState setup core calls i).burstQueue, tx'.peer = tx.peer → tx'.priority ≠ 0) ∧
    (∀ i j, i ≤ j → j < calls.length → ∀ tx tx',
      (runState setup core calls i).outbound.Activates
        (runState setup core calls (i + 1)).outbound tx →
      (runState setup core calls j).outbound.Activates
        (runState setup core calls (j + 1)).outbound tx' →
      tx'.peer = tx.peer → tx'.priority = tx.priority → tx.order ≤ tx'.order) ∧
    (∀ (s : APRSAdapter) peer frame options transactionId,
      ((queueFrame setup peer frame options).run s).1 = .ok transactionId →
      ∃ tx ∈ ((queueFrame setup peer frame options).run s).2.burstQueue,
        tx.order = s.burstOrder ∧ tx.peer = peer ∧ tx.transactionId = transactionId ∧
        tx.priority = if options.proactive then 1 else 0) ∧
    (∀ i j, i ≤ j → j ≤ calls.length → ∀ tx ∈ (runState setup core calls i).outbound.held,
      ∀ tx' ∈ (runState setup core calls j).outbound.held, tx'.order = tx.order →
      tx'.peer = tx.peer ∧ tx'.priority = tx.priority) ∧
    ∀ i ≤ calls.length,
      (∀ r ∈ (runState setup core calls i).reports,
        ∃ e ∈ (runState setup core calls i).endings, r.order = some e.order ∧
          e.delivery = some r.delivery ∧ r.delivered = e.acknowledged) ∧
      ∀ n, ((runState setup core calls i).reports.filter fun r => r.order = some n).length ≤ 1 := by
  have hsound := runState_sound setup core calls
  have hfirst : ∀ i (_ : i < calls.length) tx,
      (runState setup core calls i).outbound.Activates
        (runState setup core calls (i + 1)).outbound tx →
      FirstOfPeer (runState setup core calls i).burstQueue tx := by
    intro i hi tx hactivates
    rw [show runState setup core calls (i + 1) = step setup (runState setup core calls i)
      calls[i] from
      stateAt_succ hi] at hactivates
    exact activates_first (hsound i hi.le) hactivates
  refine ⟨?_, bursts_of_transaction, fun i j hij hj e he => ?_,
    fun i k j hik hkj hj tx htx hleft => ?_,
    fun i hi tx hactivates hproactive tx' htx' hpeer hresponse => ?_,
    fun i j hij hj tx tx' hactivates hactivates' hpeer hpriority => ?_,
    fun s peer frame options transactionId hid => ?_, fun i j hij hj tx htx tx' htx' horder => ?_,
    fun i hi => ?_⟩
  · obtain ⟨log, h, hshows⟩ := runState_disciplined setup core calls.length le_rfl
    exact h.spaced.sublist hshows.sublist
  · obtain ⟨log, h, -⟩ := runState_disciplined setup core i (hij.trans hj.le)
    exact not_sent_of_left hij hj (h.ended_lt e he) (h.ended_held e he)
  · have hi := (hik.trans hkj).trans hj.le
    exact not_sent_of_left hkj hj ((Outbound.order_lt_of_held (hsound i hi) htx).trans_le
      (runState_later hik (hkj.trans hj.le)).order_le) hleft
  · have hbefore := (hfirst i hi tx hactivates).2 tx' htx' hpeer
    rw [BurstTx.Before] at hbefore
    omega
  · -- The later one waited already when the earlier one was started, unless it was queued after.
    by_cases hnew : tx'.order < (runState setup core calls i).burstOrder
    · have hqueued := (runState_later hij hj.le).queue_old tx' hactivates'.1 hnew
      have hbefore := (hfirst i (hij.trans_lt hj) tx hactivates).2 tx' hqueued hpeer
      rw [BurstTx.Before] at hbefore
      omega
    · have hlt := Outbound.order_lt_of_held (hsound i (hij.trans hj.le))
        (Outbound.mem_held.mpr (.inl hactivates.1))
      exact hlt.le.trans (not_lt.mp hnew)
  · obtain ⟨tx, htx, htransaction, hqueues⟩ :=
      (queueFrame_yields frame options s).2 transactionId hid
    exact ⟨tx, htx, hqueues.order_eq, hqueues.peer_eq, htransaction, hqueues.priority_eq⟩
  · have hparcel := parcel_of_held hij hj htx htx' horder
    exact ⟨congrArg Parcel.peer hparcel, congrArg Parcel.priority hparcel⟩
  · obtain ⟨log, h, -⟩ := runState_disciplined setup core i hi
    have hreports : (runState setup core calls i).reports =
        (runState setup core calls i).endings.filterMap Ending.report := h.sound.reported
    rw [hreports]
    exact ⟨fun r hr => Ending.of_report (List.mem_filterMap.mp hr),
      reports_le_one h.ended⟩

end OpenQSP
