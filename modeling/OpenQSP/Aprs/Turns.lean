import OpenQSP.Aprs.Discipline

/-!
# Taking turns

The transactions to one peer take turns. Once another one was sent to the peer, the one before is
held no more; those of one priority are sent in the order in which they were queued. So a response
that is queued last, such as the end of a page, leaves after all the responses before it have been
acknowledged, given up or superseded.

## Main definitions

* `Outbound.Grouped`, `Outbound.InOrder` — the two invariants of what was sent and what is held

## Main results

* `Outbound.Grouped.move` — one move
* `Outbound.InOrder.step` — one call
* **`bursts_takeTurns`**
-/

namespace OpenQSP

open APRSAdapter Method

/-- What ends a part of a longer list ends that list, or is part of the rest. -/
theorem sublist_concat {α : Type} {l log : List α} {x y : α}
    (h : (l ++ [x]).Sublist (log ++ [y])) :
    (l ++ [x]).Sublist log ∨ (l.Sublist log ∧ x = y) := by
  have hreverse := h.reverse
  rw [List.reverse_append, List.reverse_append, List.reverse_singleton, List.reverse_singleton,
    List.singleton_append, List.singleton_append] at hreverse
  rcases List.sublist_cons_iff.mp hreverse with hrest | ⟨r, heq, hr⟩
  · refine .inl (List.reverse_sublist.mp ?_)
    rwa [List.reverse_append, List.reverse_singleton, List.singleton_append]
  · obtain ⟨rfl, rfl⟩ := List.cons.inj heq
    exact .inr ⟨List.reverse_sublist.mp hr, rfl⟩

variable {setup : Setup} {o o' : Outbound} {b : Option Burst} {log : List Burst}

namespace Outbound

/-! ### One move -/

/-- What a move sends is of the active transaction of a peer, or of one that waits for an idle
peer. -/
theorem Move.sends {burst : Burst} (h : Move setup o (some burst) o') :
    burst.tx ∈ o.active.values ∨
      (burst.tx ∈ o.queue ∧ burst.tx.peer ∉ o.active.keys) := by
  cases h with
  | retry _ active _ _ => exact .inl (active_mem_values active)
  | start queued idle _ => exact .inr ⟨queued, idle⟩

/-- Each peer has one active transaction. -/
theorem PeersMatch.active_unique (h : o.PeersMatch) {tx tx' : BurstTx}
    (htx : tx ∈ o.active.values) (htx' : tx' ∈ o.active.values) (hpeer : tx.peer = tx'.peer) :
    tx = tx' := by
  obtain ⟨e, he, rfl⟩ := List.mem_map.mp htx
  obtain ⟨e', he', rfl⟩ := List.mem_map.mp htx'
  have hkey : e.1 = e'.1 := (h e he).symm.trans (hpeer.trans (h e' he'))
  exact congrArg Prod.snd (OrderedDict.eq_of_fst_eq he he' hkey)

/-- The bursts to a peer come in groups, one for each transaction, and only the transaction of the
last group may still be held. -/
structure Grouped (setup : Setup) (log : List Burst) (o : Outbound) : Prop where
  disciplined : o.Disciplined setup log
  parcel_eq : ∀ b ∈ log, ∀ tx ∈ o.held, tx.order = b.tx.order → tx.parcel = b.tx.parcel
  left : log.Pairwise fun b b' => b'.tx.peer = b.tx.peer → b'.tx.order ≠ b.tx.order →
    ∀ tx ∈ o.held, tx.order ≠ b.tx.order
  together : ∀ b b' b'', [b, b', b''].Sublist log → b'.tx.peer = b.tx.peer →
    b''.tx.order = b.tx.order → b'.tx.order = b.tx.order

theorem Grouped.empty : Grouped setup [] ⟨[], .empty, 0, .empty, [], [], [], .empty⟩ where
  disciplined := .empty
  parcel_eq _ h := absurd h List.not_mem_nil
  left := .nil
  together _ _ _ h := absurd h.length_le (by simp)

namespace Grouped

/-- What was sent and is still held is active. -/
theorem sent_active (h : o.Grouped setup log) {b : Burst} (hb : b ∈ log) {tx : BurstTx}
    (htx : tx ∈ o.held) (horder : tx.order = b.tx.order) : tx ∈ o.active.values := by
  refine (mem_held.mp htx).resolve_left fun hqueued => ?_
  have hlt := h.disciplined.earlier b hb tx htx horder.symm
  rw [h.disciplined.queued tx hqueued] at hlt
  exact absurd hlt (Nat.not_lt_zero _)

/-- When something else is sent to the peer of a burst, its transaction is held no more. -/
theorem not_held_of_sends (h : o.Grouped setup log) {b' : Burst}
    (hmove : Move setup o (some b') o') {b : Burst} (hb : b ∈ log) (hpeer : b'.tx.peer = b.tx.peer)
    (horder : b'.tx.order ≠ b.tx.order) : ∀ tx ∈ o.held, tx.order ≠ b.tx.order := by
  intro tx htx heq
  have hactive := h.sent_active hb htx heq
  have htxpeer : tx.peer = b'.tx.peer :=
    (congrArg Parcel.peer (h.parcel_eq b hb tx htx heq)).trans hpeer.symm
  rcases hmove.sends with hretried | ⟨-, hidle⟩
  · have hsame := h.disciplined.sound.peers.active_unique hactive hretried htxpeer
    exact horder (hsame ▸ heq)
  · obtain ⟨e, he, rfl⟩ := List.mem_map.mp hactive
    refine hidle ?_
    rw [← htxpeer, h.disciplined.sound.peers e he]
    exact List.mem_map_of_mem he

theorem move (h : o.Grouped setup log) (hmove : Move setup o b o') :
    o'.Grouped setup (log ++ b.toList) := by
  have hpeers := h.disciplined.sound.peers
  -- Nothing that was sent before comes back under another parcel.
  have hold : ∀ tx' ∈ o'.held, tx'.order < o.nextOrder →
      ∃ tx ∈ o.held, tx.parcel = tx'.parcel := fun tx' htx' hlt =>
    (hmove.held_parcel hpeers htx').resolve_right hlt.ne
  have hleft : ∀ n < o.nextOrder, (∀ tx ∈ o.held, tx.order ≠ n) →
      ∀ tx' ∈ o'.held, tx'.order ≠ n := by
    rintro n hn hnone tx' htx' rfl
    obtain ⟨tx, htx, hparcel⟩ := hold tx' htx' hn
    exact hnone tx htx (congrArg Parcel.order hparcel)
  have hheld : ∀ b' ∈ b.toList, b'.tx ∈ o.held := by
    intro b' hb'
    obtain rfl := Option.mem_toList.mp hb'
    exact mem_held.mpr (hmove.sends.symm.imp_left And.left)
  have hnew : ∀ b₁ ∈ log, ∀ b' ∈ b.toList, b'.tx.peer = b₁.tx.peer → b'.tx.order ≠ b₁.tx.order →
      ∀ tx ∈ o.held, tx.order ≠ b₁.tx.order := by
    intro b₁ hb₁ b' hb' hpeer horder
    obtain rfl := Option.mem_toList.mp hb'
    exact h.not_held_of_sends hmove hb₁ hpeer horder
  refine ⟨h.disciplined.move hmove, fun b' hb' tx' htx' horder => ?_, ?_,
    fun b₁ b₂ b₃ hsub hpeer horder => ?_⟩
  · have hlt : tx'.order < o.nextOrder := by
      rw [horder]
      rcases List.mem_append.mp hb' with hb' | hb'
      · exact h.disciplined.order_lt b' hb'
      · exact order_lt_of_held h.disciplined.sound (hheld b' hb')
    obtain ⟨tx, htx, hparcel⟩ := hold tx' htx' hlt
    have horder' : tx.order = b'.tx.order := (congrArg Parcel.order hparcel).trans horder
    rw [← hparcel]
    rcases List.mem_append.mp hb' with hb' | hb'
    · exact h.parcel_eq b' hb' tx htx horder'
    · rw [List.inj_on_of_nodup_map h.disciplined.sound.nodup_held_orders htx (hheld b' hb') horder']
  · refine List.pairwise_append.mpr ⟨h.left.imp_of_mem fun hb₁ _ hnone hpeer horder => ?_, ?_,
      fun b₁ hb₁ b' hb' hpeer horder => ?_⟩
    · exact hleft _ (h.disciplined.order_lt _ hb₁) (hnone hpeer horder)
    · cases b with
      | none => exact .nil
      | some b => exact List.pairwise_singleton _ _
    · exact hleft _ (h.disciplined.order_lt _ hb₁) (hnew b₁ hb₁ b' hb' hpeer horder)
  · cases b with
    | none =>
      rw [Option.toList_none, List.append_nil] at hsub
      exact h.together b₁ b₂ b₃ hsub hpeer horder
    | some b =>
      rcases sublist_concat (l := [b₁, b₂]) hsub with hold | ⟨hold, rfl⟩
      · exact h.together b₁ b₂ b₃ hold hpeer horder
      · -- Its transaction is held, and so nothing else was sent to the peer since.
        by_contra hne
        have hleft₁ : ∀ tx ∈ o.held, tx.order ≠ b₁.tx.order :=
          List.pairwise_pair.mp (h.left.sublist hold) hpeer hne
        exact hleft₁ b₃.tx (hheld b₃ (List.mem_singleton_self _)) horder

theorem trace {log' : List Burst} (h : o.Grouped setup log)
    (htrace : Trace (Move setup) o log' o') : o'.Grouped setup (log ++ log') :=
  htrace.invariant (I := fun log o => o.Grouped setup log) h fun _ _ _ _ h hmove => h.move hmove

/-- What was sent last to a peer is the newest of its priority. -/
theorem order_le_of_active (h : o.Grouped setup log)
    (hrising : log.Pairwise fun b b' => b'.tx.peer = b.tx.peer →
      b'.tx.priority = b.tx.priority → b.tx.order ≤ b'.tx.order)
    {tx : BurstTx} (htx : tx ∈ o.active.values) {b : Burst} (hb : b ∈ log)
    (hpeer : tx.peer = b.tx.peer) (hpriority : tx.priority = b.tx.priority) :
    b.tx.order ≤ tx.order := by
  obtain ⟨b₀, hb₀, horder, -⟩ := h.disciplined.active_begun tx htx
  have hheld := mem_held.mpr (.inr htx)
  have hparcel := h.parcel_eq b₀ hb₀ tx hheld horder.symm
  have hpeer₀ : b₀.tx.peer = b.tx.peer := (congrArg Parcel.peer hparcel).symm.trans hpeer
  have hpriority₀ : b₀.tx.priority = b.tx.priority :=
    (congrArg Parcel.priority hparcel).symm.trans hpriority
  rw [← horder]
  by_cases hsame : b₀ = b
  · rw [hsame]
  obtain ⟨i, hi, rfl⟩ := List.getElem_of_mem hb₀
  obtain ⟨j, hj, rfl⟩ := List.getElem_of_mem hb
  rcases Nat.lt_trichotomy i j with hij | rfl | hij
  · -- The transaction of `b` would have taken its place.
    by_contra hlt
    refine List.pairwise_iff_getElem.mp h.left i j hi hj hij hpeer₀.symm (by omega) tx hheld ?_
    exact horder.symm
  · exact absurd rfl hsame
  · exact List.pairwise_iff_getElem.mp hrising j i hj hi hij hpeer₀ hpriority₀

end Grouped

/-! ### One call -/

/-- The bursts to a peer that have one priority are in the order in which their transactions were
queued, and those that wait come after them. -/
structure InOrder (setup : Setup) (log : List Burst) (o : Outbound) : Prop where
  grouped : o.Grouped setup log
  rising : log.Pairwise fun b b' => b'.tx.peer = b.tx.peer →
    b'.tx.priority = b.tx.priority → b.tx.order ≤ b'.tx.order
  waiting : ∀ b ∈ log, ∀ tx ∈ o.queue, tx.peer = b.tx.peer → tx.priority = b.tx.priority →
    b.tx.order < tx.order

theorem InOrder.empty : InOrder setup [] ⟨[], .empty, 0, .empty, [], [], [], .empty⟩ where
  grouped := .empty
  rising := .nil
  waiting _ h := absurd h List.not_mem_nil

namespace InOrder

/-- What waits is newer than the active transaction of its peer. -/
theorem active_lt (h : o.InOrder setup log) {tx tx' : BurstTx} (htx : tx ∈ o.active.values)
    (htx' : tx' ∈ o.queue) (hpeer : tx'.peer = tx.peer) (hpriority : tx'.priority = tx.priority) :
    tx.order < tx'.order := by
  obtain ⟨b₀, hb₀, horder, -⟩ := h.grouped.disciplined.active_begun tx htx
  have hparcel := h.grouped.parcel_eq b₀ hb₀ tx (mem_held.mpr (.inr htx)) horder.symm
  rw [← horder]
  exact h.waiting b₀ hb₀ tx' htx' (hpeer.trans (congrArg Parcel.peer hparcel))
    (hpriority.trans (congrArg Parcel.priority hparcel))

/-- Retries of active transactions, and starts of the first transactions of their peers. -/
theorem trace (h : o.InOrder setup log) {retries starts : List Burst}
    (htrace : Trace (Move setup) o (retries ++ starts) o')
    (hretries : ∀ b ∈ retries, b.tx ∈ o.active.values)
    (hstarts : ∀ b ∈ starts, FirstOfPeer o.queue b.tx) :
    o'.InOrder setup (log ++ (retries ++ starts)) := by
  have hgrouped := h.grouped.trace htrace
  have hsound := h.grouped.disciplined.sound
  have hlater := hsound.later htrace
  have hpeers := hsound.peers
  refine ⟨hgrouped, ?_, fun b hb tx htx hpeer hpriority => ?_⟩
  · refine List.pairwise_append.mpr ⟨h.rising, List.pairwise_append.mpr
      ⟨List.pairwise_of_forall_mem_list ?_, List.pairwise_of_forall_mem_list ?_, ?_⟩, ?_⟩
    · intro b hb b' hb' hpeer _
      rw [hpeers.active_unique (hretries b' hb') (hretries b hb) hpeer]
    · intro b hb b' hb' hpeer hpriority
      have hbefore := (hstarts b hb).2 b'.tx (hstarts b' hb').1 hpeer
      rw [BurstTx.Before] at hbefore
      omega
    · intro b hb b' hb' hpeer hpriority
      exact (h.active_lt (hretries b hb) (hstarts b' hb').1 hpeer hpriority).le
    · intro b hb b' hb' hpeer hpriority
      rcases List.mem_append.mp hb' with hb' | hb'
      · exact h.grouped.order_le_of_active h.rising (hretries b' hb') hb hpeer hpriority
      · exact (h.waiting b hb b'.tx (hstarts b' hb').1 hpeer hpriority).le
  · by_cases hnew : o.nextOrder ≤ tx.order
    · -- It was queued after all of this was sent.
      have hheld : ∀ b ∈ retries ++ starts, b.tx ∈ o.held := fun b hb => mem_held.mpr
        ((List.mem_append.mp hb).symm.imp (fun hb => (hstarts b hb).1) (hretries b))
      refine lt_of_lt_of_le ?_ hnew
      rcases List.mem_append.mp hb with hb | hb
      · exact h.grouped.disciplined.order_lt b hb
      · exact order_lt_of_held hsound (hheld b hb)
    · have hqueued := hlater.queue_old tx htx (not_le.mp hnew)
      rcases List.mem_append.mp hb with hold | hb'
      · exact h.waiting b hold tx hqueued hpeer hpriority
      rcases List.mem_append.mp hb' with hb' | hb'
      · exact h.active_lt (hretries b hb') hqueued hpeer hpriority
      · have hbefore := (hstarts b hb').2 tx hqueued hpeer
        -- What was started waits no more.
        have hne : b.tx.order ≠ tx.order := by
          intro heq
          have hlt := hgrouped.disciplined.earlier b hb tx (mem_held.mpr (.inl htx)) heq
          rw [hgrouped.disciplined.queued tx htx] at hlt
          exact Nat.not_lt_zero _ hlt
        rw [BurstTx.Before] at hbefore
        omega

end InOrder

end Outbound

theorem step_inOrder {s : APRSAdapter} (h : s.outbound.InOrder setup log) (call : Call) :
    ∃ log', (step setup s call).outbound.InOrder setup (log ++ log') ∧
      Shows (call.bursts setup s) log' := by
  obtain ⟨retries, starts, htrace, hretries, hstarts, hbursts⟩ :=
    step_trace h.grouped.disciplined.sound call
  refine ⟨_, h.trace htrace hretries hstarts, ?_⟩
  rcases hbursts with hbursts | ⟨hnone, rfl⟩
  · rw [hbursts]
    exact ⟨List.Sublist.refl _, fun _ hb _ => hb⟩
  · rw [hnone, List.append_nil]
    exact ⟨List.nil_sublist _, fun b hb hzero =>
      absurd hzero (h.grouped.disciplined.active_attempts (hretries b hb)).ne'⟩

/-! ### Runs -/

variable (setup) in
theorem runState_inOrder (core : CoreState) (calls : List Call) : ∀ i ≤ calls.length, ∃ log,
    (runState setup core calls i).outbound.InOrder setup log ∧
    Shows (sentBursts setup core calls i) log := by
  intro i
  induction i with
  | zero => exact fun _ => ⟨[], .empty, List.Sublist.refl _, fun _ hb => absurd hb List.not_mem_nil⟩
  | succ i ih =>
    intro hi
    obtain ⟨log, hlog, hshows⟩ := ih (Nat.le_of_succ_le hi)
    obtain ⟨log', hlog', hshows'⟩ := step_inOrder hlog calls[i]
    refine ⟨log ++ log', ?_, ?_⟩
    · rw [runState, stateAt_succ hi]
      exact hlog'
    · rw [sentBursts, List.range_succ, List.flatMap_append, List.flatMap_singleton,
        burstsAt_of_lt hi]
      exact hshows.append hshows'

/-- **The transactions to one peer take turns.** Between two bursts of one transaction nothing else
is sent to its peer. Those of one priority are sent in the order in which they were queued, and
when one of them has been sent, none that was queued before it is held any more. -/
theorem bursts_takeTurns (setup : Setup) (core : CoreState) (calls : List Call) :
    (∀ b b' b'', [b, b', b''].Sublist (sentBursts setup core calls calls.length) →
      b'.tx.peer = b.tx.peer → b''.tx.order = b.tx.order → b'.tx.order = b.tx.order) ∧
    ((sentBursts setup core calls calls.length).Pairwise fun b b' =>
      b'.tx.peer = b.tx.peer → b'.tx.priority = b.tx.priority → b.tx.order ≤ b'.tx.order) ∧
    ∀ i ≤ calls.length, ∀ b ∈ sentBursts setup core calls i,
      ∀ tx ∈ (runState setup core calls i).burstQueue ++
        (runState setup core calls i).burstActive.values,
      tx.peer = b.tx.peer → tx.priority = b.tx.priority → b.tx.order ≤ tx.order := by
  obtain ⟨log, h, hshows⟩ := runState_inOrder setup core calls calls.length le_rfl
  refine ⟨fun b b' b'' hsub => h.grouped.together b b' b'' (hsub.trans hshows.sublist),
    h.rising.sublist hshows.sublist, fun i hi b hb tx htx hpeer hpriority => ?_⟩
  obtain ⟨log, h, hshows⟩ := runState_inOrder setup core calls i hi
  have hsent := hshows.sublist.subset hb
  rcases List.mem_append.mp htx with hqueued | hactive
  · exact (h.waiting b hsent tx hqueued hpeer hpriority).le
  · exact h.grouped.order_le_of_active h.rising hactive hsent hpeer hpriority

end OpenQSP
