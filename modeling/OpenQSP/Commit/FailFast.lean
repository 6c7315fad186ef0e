import OpenQSP.Commit.Changes

/-!
# Fail-fast batches

A packet that was sent as often as allowed takes its whole transaction with it, and the rest of its
response batch. What is removed is not sent or acknowledged any more, and everything else stays in
its order. A client that repeats its request may be answered again, by new transactions of the same
batch.

## Main definitions

* `QueuedFragment.SharesWork` — what fails together
* `FailsFast` — what a failure does
* `Exhausted` — the loop of `poll` comes to a packet that was sent as often as allowed

## Main results

* `pollPending_failsFast` — one failure
* `FailsFast.not_mem_held`, `FailsFast.order_le` — what was removed stays removed
* **`failed_work_removed`** — in every run
-/

namespace OpenQSP

open Method Py

/-- The fragment belongs to the same transaction, or to the same response batch. -/
def QueuedFragment.SharesWork (failed item : QueuedFragment) : Prop :=
  item.peer = failed.peer ∧ (item.fragment.transactionId = failed.fragment.transactionId ∨
    (failed.responseBatch.isSome = true ∧ item.responseBatch = failed.responseBatch))

instance (failed item : QueuedFragment) : Decidable (failed.SharesWork item) :=
  inferInstanceAs (Decidable (_ ∧ _))

theorem QueuedFragment.SharesWork.refl (item : QueuedFragment) : item.SharesWork item :=
  ⟨rfl, .inl rfl⟩

namespace CommitAPRSAdapter

variable {setup : CommitSetup} {peer : Str} {key : Str × Str} {now : ℚ} {s s' : CommitAPRSAdapter}
  {failed : PendingFragment}

/-! ### The deliveries -/

/-- The core after calls of `mark_aprs_failed`. -/
def markedFailed (setup : CommitSetup) (called : List Delivery) (core : CoreState) : CoreState :=
  called.foldl (fun core d => ((CoreState.markAprsFailed setup.stores d).run core).2) core

/-- `mark_aprs_failed` is called for the deliveries of the list, one after another, until a call
raises. -/
def MarksFailed (setup : CommitSetup) (l : List Delivery) (s : CommitAPRSAdapter)
    (outcome : Py Unit)
    (s' : CommitAPRSAdapter) : Prop :=
  s' = { s with marks := s'.marks, core := s'.core } ∧
    ∃ called, called <+: l ∧ s'.marks = s.marks ++ called.map (fun d => (d, .failed)) ∧
      s'.core = markedFailed setup called s.core ∧
      (outcome = .ok () ∧ called = l ∨ ∃ e, outcome = .error e ∧ ∃ d ∈ called.getLast?, ∃ core,
        (CoreState.markAprsFailed setup.stores d).run core = (.error e, s'.core))

theorem forM_mark_failed (l : List Delivery) (s : CommitAPRSAdapter) :
    (l.forM (mark setup .failed)).Yields s (MarksFailed setup l s) := by
  induction l generalizing s with
  | nil => exact ⟨rfl, [], List.prefix_rfl, (List.append_nil _).symm, rfl, .inl ⟨rfl, rfl⟩⟩
  | cons d l ih =>
    refine Yields.bind (Q := fun outcome s₁ =>
      outcome = ((CoreState.markAprsFailed setup.stores d).run s.core).1 ∧
      s₁ = { s with
        marks := s.marks ++ [(d, .failed)]
        core := ((CoreState.markAprsFailed setup.stores d).run s.core).2 }) ⟨rfl, rfl⟩ ?_ ?_
    · rintro _ s₁ ⟨-, rfl⟩
      refine Yields.mono (ih _) fun outcome s' hs' => ?_
      obtain ⟨hframe, called, hcalled, hmarks, hcore, houtcome⟩ := hs'
      refine ⟨hframe.trans rfl, d :: called, (List.prefix_cons_inj d).mpr hcalled, ?_, hcore, ?_⟩
      · rw [hmarks, List.append_assoc]
        rfl
      · rcases houtcome with ⟨hok, rfl⟩ | ⟨e, herror, d', hlast, core, hrun⟩
        · exact .inl ⟨hok, rfl⟩
        · refine .inr ⟨e, herror, d', ?_, core, hrun⟩
          cases called with
          | nil => cases hlast
          | cons d'' called => rwa [List.getLast?_cons_cons]
    · rintro e s₁ ⟨herror, rfl⟩
      refine ⟨rfl, [d], (List.prefix_cons_inj d).mpr List.nil_prefix, rfl, rfl,
        .inr ⟨e, rfl, d, rfl, s.core, ?_⟩⟩
      exact Prod.ext herror.symm rfl

/-! ### One failure -/

/-- What the failure of a packet does. -/
structure FailsFast (setup : CommitSetup) (failed : PendingFragment) (s : CommitAPRSAdapter)
    (outcome : Py (List Emission)) (s' : CommitAPRSAdapter) : Prop where
  queue_perm : s'.queue.Perm (s.queue.filter fun item => ¬failed.item.SharesWork item)
  heap : Heapq.IsHeap QueuedFragment.le s'.queue
  pending_eq : s'.pending = s.pending.filter fun e => ¬failed.item.SharesWork e.2.item
  silent : ∀ es, outcome = .ok es → es = []
  frame : s' = { s with
    queue := s'.queue
    pending := s'.pending
    failedPackets := s'.failedPackets
    marks := s'.marks
    core := s'.core }
  /-- The deliveries are marked once each, unless a call raises, and Core does nothing else. -/
  marked : ∃ called : List Delivery, s'.marks = s.marks ++ called.map (fun d => (d, .failed)) ∧
    s'.core = markedFailed setup called s.core ∧ called.Nodup ∧
    (∀ d ∈ called, ∃ item ∈ s.outbox.held, failed.item.SharesWork item ∧ item.delivery = some d) ∧
    ((∀ item ∈ s.outbox.held, failed.item.SharesWork item → ∀ d ∈ item.delivery, d ∈ called) ∨
      ∃ e, outcome = .error e ∧ ∃ d ∈ called.getLast?, ∃ core,
        (CoreState.markAprsFailed setup.stores d).run core = (.error e, s'.core))

theorem isFailed_iff {item : QueuedFragment} (hpeer : peer = failed.item.peer) :
    (item.peer = peer && isFailed failed item.fragment.transactionId item.responseBatch) =
      decide (failed.item.SharesWork item) := by
  obtain ⟨htransaction, hcopied⟩ := Prod.mk.inj failed.copied
  obtain ⟨-, hbatch⟩ := Prod.mk.inj hcopied
  rw [isFailed, htransaction, hbatch, hpeer, ← Bool.decide_eq_true
    (b := failed.item.responseBatch.isSome),
    ← Bool.decide_and, ← Bool.decide_or, ← Bool.decide_and]
  rfl

/-- The same of a packet that waits for its acknowledgement. -/
theorem isFailed_pending_iff (hsound : s.outbox.Sound) {e : (Str × Str) × PendingFragment}
    (he : e ∈ s.pending.entries) (hpeer : peer = failed.item.peer) :
    (e.1.1 = peer && isFailed failed e.2.transactionId e.2.responseBatch) =
      decide (failed.item.SharesWork e.2.item) := by
  obtain ⟨htransaction, hcopied⟩ := Prod.mk.inj e.2.copied
  obtain ⟨-, hbatch⟩ := Prod.mk.inj hcopied
  rw [← isFailed_iff hpeer, htransaction, hbatch, (hsound.key_eq e he).1]

/-- The deliveries that are collected are those of the fragments that fail. -/
theorem mem_abandoned (hfound : (key, failed) ∈ s.pending.entries) {d : Delivery} :
    d ∈ failed.delivery.toList ++
        (s.queue.filter fun item => failed.item.SharesWork item).filterMap
          QueuedFragment.delivery ++
        (s.pending.filter fun e => failed.item.SharesWork e.2.item).values.filterMap
          PendingFragment.delivery ↔
      ∃ item ∈ s.outbox.held, failed.item.SharesWork item ∧ item.delivery = some d := by
  have hdelivery : ∀ pending : PendingFragment, pending.delivery = pending.item.delivery :=
    fun pending =>
    (Prod.mk.inj (Prod.mk.inj pending.copied).2).1
  rw [List.mem_append, List.mem_append, Option.mem_toList, List.mem_filterMap, List.mem_filterMap]
  constructor
  · rintro ((hd | ⟨item, hitem, hd⟩) | ⟨pending, hpending, hd⟩)
    · exact ⟨failed.item, Outbox.mem_held.mpr (.inr (Outbox.mem_sent.mpr ⟨_, hfound, rfl⟩)),
        .refl _, hdelivery _ ▸ hd⟩
    · obtain ⟨hqueued, hshares⟩ := List.mem_filter.mp hitem
      exact ⟨item, Outbox.mem_held.mpr (.inl hqueued), of_decide_eq_true hshares, hd⟩
    · obtain ⟨e, he, rfl⟩ := List.mem_map.mp hpending
      obtain ⟨hentry, hshares⟩ := OrderedDict.mem_entries_filter.mp he
      exact ⟨e.2.item, Outbox.mem_held.mpr (.inr (Outbox.mem_sent.mpr ⟨e, hentry, rfl⟩)),
        of_decide_eq_true hshares,
        hdelivery _ ▸ hd⟩
  · rintro ⟨item, hitem, hshares, hd⟩
    rcases Outbox.mem_held.mp hitem with hqueued | hsent
    · exact .inl (.inr ⟨item, List.mem_filter.mpr ⟨hqueued, decide_eq_true hshares⟩, hd⟩)
    · obtain ⟨e, he, rfl⟩ := Outbox.mem_sent.mp hsent
      refine .inr ⟨e.2, List.mem_map_of_mem (OrderedDict.mem_entries_filter.mpr ⟨he,
        decide_eq_true hshares⟩), ?_⟩
      rw [hdelivery, hd]

theorem failTransaction_failsFast (hsound : s.outbox.Sound)
    (hfound : s.pending.get? key = some failed) :
    (failTransaction setup key.1 failed).Yields s fun outcome s' =>
      FailsFast setup failed s (outcome.map fun _ => []) s' := by
  have hentry : (key, failed) ∈ s.pending.entries := OrderedDict.get?_eq_some_iff.mp hfound
  have hpeer : key.1 = failed.item.peer := (hsound.key_eq _ hentry).1
  have hpending : ∀ e ∈ s.pending.entries, (decide (e.1.1 = key.1) &&
      isFailed failed e.2.transactionId e.2.responseBatch) =
        decide (failed.item.SharesWork e.2.item) :=
    fun e he => isFailed_pending_iff hsound he hpeer
  refine Yields.get_bind (Yields.modify_bind ?_)
  simp only [isFailed_iff hpeer]
  rw [OrderedDict.filter_congr hpending, OrderedDict.filter_congr fun e he =>
    congrArg not (hpending e he)]
  refine Yields.mono (forM_mark_failed _ _) fun outcome s' hs' => ?_
  obtain ⟨hframe, called, hcalled, hmarks, hcore, houtcome⟩ := hs'
  have hmem : ∀ {d}, d ∈ called → ∃ item ∈ s.outbox.held, failed.item.SharesWork item ∧
    item.delivery = some d :=
    fun hd => (mem_abandoned hentry).mp (List.mem_dedup.mp (hcalled.subset hd))
  have hqueue' : s'.queue = Heapq.heapify QueuedFragment.le
      (s.queue.filter fun item => !decide (failed.item.SharesWork item)) := by rw [hframe]
  have hpending' : s'.pending = s.pending.filter fun e =>
    !decide (failed.item.SharesWork e.2.item) := by rw [hframe]
  refine ⟨?_, ?_, ?_, ?_, ?_, called, hmarks, hcore,
    (List.nodup_dedup _).sublist hcalled.sublist, fun d hd => hmem hd, ?_⟩
  · rw [hqueue']
    simpa only [decide_not] using Heapq.heapify_perm _
  · rw [hqueue']
    exact Heapq.heapify_isHeap _
  · rw [hpending']
    simp only [decide_not]
  · intro es hes
    cases outcome with
    | error e => cases hes
    | ok => exact (Except.ok.inj hes).symm
  · rw [hframe]
  · rcases houtcome with ⟨-, rfl⟩ | ⟨e, rfl, d, hd, core, hrun⟩
    · exact .inl fun item hitem hshares d hd =>
        List.mem_dedup.mpr ((mem_abandoned hentry).mpr ⟨item, hitem, hshares, hd⟩)
    · exact .inr ⟨e, rfl, d, hd, core, hrun⟩

/-- The turn of the loop that finds a packet exhausted. -/
theorem pollPending_failsFast (hsound : s.outbox.Sound) (hfound : s.pending.get? key = some failed)
    (hdue : failed.deadline ≤ now) (hmax : setup.config.maxAttempts ≤ failed.attempts) :
    (pollPending setup now key).Yields s (FailsFast setup failed s) := by
  rw [pollPending]
  refine Yields.get_bind ?_
  rw [hfound]
  dsimp only
  rw [if_neg hdue.not_gt, if_pos hmax]
  refine Yields.modify_bind ?_
  have hfails : (failTransaction setup key.1 failed).Yields { s with
      failedPackets := lastN setup.config.eventHistoryCapacity
        (s.failedPackets ++ [failed.packet]) } _ :=
    failTransaction_failsFast hsound hfound
  rw [Yields, run_bind_pure (failTransaction setup key.1 failed) fun _ => []]
  exact ⟨hfails.queue_perm, hfails.heap, hfails.pending_eq, hfails.silent, hfails.frame,
    hfails.marked⟩

/-! ### What was removed stays removed -/

theorem FailsFast.mem_held {outcome : Py (List Emission)} (h : FailsFast setup failed s outcome s')
    {item : QueuedFragment} : item ∈ s'.outbox.held ↔ item ∈ s.outbox.held ∧
      ¬failed.item.SharesWork item := by
  have hqueue : item ∈ s'.queue ↔ item ∈ s.queue ∧ ¬failed.item.SharesWork item := by
    rw [h.queue_perm.mem_iff, List.mem_filter, decide_eq_true_iff]
  have hsent : item ∈ s'.outbox.sent ↔ item ∈ s.outbox.sent ∧ ¬failed.item.SharesWork item := by
    rw [Outbox.mem_sent, Outbox.mem_sent]
    show (∃ e ∈ s'.pending.entries, e.2.item = item) ↔
      (∃ e ∈ s.pending.entries, e.2.item = item) ∧ _
    rw [h.pending_eq]
    constructor
    · rintro ⟨e, he, rfl⟩
      obtain ⟨he, hshares⟩ := OrderedDict.mem_entries_filter.mp he
      exact ⟨⟨e, he, rfl⟩, of_decide_eq_true hshares⟩
    · rintro ⟨⟨e, he, rfl⟩, hshares⟩
      exact ⟨e, OrderedDict.mem_entries_filter.mpr ⟨he, decide_eq_true hshares⟩, rfl⟩
  rw [Outbox.mem_held, Outbox.mem_held, show s'.outbox.queue = s'.queue from rfl, hqueue, hsent,
    or_and_right]
  rfl

variable {outcome : Py (List Emission)} {s₁ : CommitAPRSAdapter} {item : QueuedFragment}

theorem FailsFast.order_eq (h : FailsFast setup failed s outcome s') : s'.order = s.order := by
  rw [h.frame]

/-- A fragment that was removed is not held later. -/
theorem FailsFast.not_mem_held (h : FailsFast setup failed s outcome s') (hsound : s.outbox.Sound)
    (hlater : Changes s' s₁) (hitem : item ∈ s.outbox.held)
      (hshares : failed.item.SharesWork item) :
    item ∉ s₁.outbox.held := by
  have horder : s'.outbox.order = s.outbox.order := h.order_eq
  intro hheld
  have hold := hlater.later.held_old item hheld (horder ▸ hsound.order_lt item hitem)
  exact (h.mem_held.mp hold).2 hshares

/-- Its message id is in use only for a fragment that was queued since. -/
theorem FailsFast.order_le (h : FailsFast setup failed s outcome s') (hsound : s.outbox.Sound)
    (hlater : Changes s' s₁) (hsound₁ : s₁.outbox.Sound) (hitem : item ∈ s.outbox.held)
    (hshares : failed.item.SharesWork item) {messageId : Str}
      (hid : item.fragment.messageId = some messageId)
    {pending : PendingFragment} (hpending : s₁.pending.get? (item.peer, messageId) = some pending) :
    s.order ≤ pending.item.order := by
  have horder : s'.outbox.order = s.outbox.order := h.order_eq
  have hentry : ((item.peer, messageId), pending) ∈ s₁.pending.entries :=
    OrderedDict.get?_eq_some_iff.mp hpending
  obtain ⟨hpeer, hid'⟩ := hsound₁.key_eq _ hentry
  by_contra hlt
  -- Otherwise it was held when the other one was, under the same message id.
  have hheld : pending.item ∈ s'.outbox.held :=
    hlater.later.held_old _ (Outbox.mem_held.mpr (.inr (Outbox.mem_sent.mpr ⟨_, hentry, rfl⟩)))
      (horder ▸ Nat.lt_of_not_le hlt)
  obtain ⟨hheld, hkept⟩ := h.mem_held.mp hheld
  have hsame : pending.item = item := List.inj_on_of_nodup_map hsound.ids_nodup hheld hitem
    (Prod.ext hpeer.symm (hid'.symm.trans hid.symm))
  exact hkept (hsame ▸ hshares)

theorem matchAck_base36Digits (value : ℕ) :
    matchAck (str "ack" ++ base36Digits 2 value) = some (base36Digits 2 value) := by
  have htake : (str "ack" ++ base36Digits 2 value).take 3 = str "ack" := List.take_left' rfl
  have hdrop : (str "ack" ++ base36Digits 2 value).drop 3 = base36Digits 2 value :=
    List.drop_left' rfl
  rw [matchAck, htake, hdrop, length_base36Digits]
  exact if_pos ⟨rfl, by decide, by decide, all_isBase36_base36Digits 2 value⟩

/-- An acknowledgement of nothing that waits for one is ignored. -/
theorem receive_ack_ignored (hnamed : item.Named) {messageId : Str}
    (hid : item.fragment.messageId = some messageId)
    (hnone : s.pending.get? (item.peer, messageId) = none) :
    (receive setup item.peer (str "ack" ++ messageId) now).run s = (.ok .ignored, s) := by
  obtain ⟨value, hvalue⟩ := hnamed.messageId
  obtain rfl : messageId = base36Digits 2 value := Option.some.inj (hid.symm.trans hvalue)
  simp only [receive, hnamed.peer, matchAck_base36Digits, receiveAck, run_get_bind, hnone]
  rfl

/-! ### What a poll sends -/

variable (setup now) in
/-- What the loop sends was held then, and its peer is one of the loop. -/
theorem pollAllPending_yields (keys : List (Str × Str)) (s : CommitAPRSAdapter)
    (hsound : s.outbox.Sound) :
    (keys.mapM (pollPending setup now)).Yields s fun outcome s' => Changes s s' ∧
      ∀ ess, outcome = .ok ess → ∀ e ∈ ess.flatten, ∃ item packet, e = .retry item packet ∧
        item.peer ∈ keys.map Prod.fst ∧ ∃ s₁, Changes s s₁ ∧ item ∈ s₁.outbox.held := by
  induction keys generalizing s with
  | nil =>
    refine ⟨refl_of Changes s, fun ess hess e he => ?_⟩
    obtain rfl : [] = ess := Except.ok.inj hess
    cases he
  | cons key keys ih =>
    rw [List.mapM_cons]
    refine Yields.bind (pollPending_yields key s) (fun es s₁ hs₁ => ?_) fun _ _ hs₁ => ⟨hs₁.1,
      nofun⟩
    obtain ⟨hchanges, hsent⟩ := hs₁
    refine Yields.bind (ih s₁ (hchanges.sound hsound)) (fun ess s₂ hs₂ => ?_)
      fun _ _ hs₂ => ⟨trans_of Changes hchanges hs₂.1, nofun⟩
    obtain ⟨hchanges', hsent'⟩ := hs₂
    refine ⟨trans_of Changes hchanges hchanges', fun ess' hess' e he => ?_⟩
    obtain rfl : es :: ess = ess' := Except.ok.inj hess'
    rw [List.flatten_cons, List.mem_append] at he
    rcases he with he | he
    · obtain ⟨pending, hpending, rfl⟩ := hsent es rfl e he
      have hentry : (key, pending) ∈ s.pending.entries := OrderedDict.get?_eq_some_iff.mp hpending
      refine ⟨pending.item, pending.packet, rfl, ?_, s, refl_of Changes s,
        Outbox.mem_held.mpr (.inr (Outbox.mem_sent.mpr ⟨_, hentry, rfl⟩))⟩
      rw [← (hsound.key_eq _ hentry).1]
      exact List.mem_cons_self
    · obtain ⟨item, packet, rfl, hpeer, s', hs', hitem⟩ := hsent' ess rfl e he
      exact ⟨item, packet, rfl, List.mem_cons_of_mem _ hpeer, s', trans_of Changes hchanges hs',
        hitem⟩

/-- What follows the loop: a least fragment of the queue is sent, or none. -/
theorem pollQueue_expire_yields (hsound : s.outbox.Sound) (sent : List Emission) :
    (do let first ← pollQueue setup now
        modify (expireAll setup now)
        return sent ++ first : CommitAdapter (List Emission)).Yields s
          fun outcome s' => Changes s s' ∧
      ∀ es, outcome = .ok es → ∀ e ∈ es, e ∈ sent ∨ ∃ item packet, e = .first item packet ∧
        item ∈ s.outbox.held ∧ ∀ item' ∈ s'.queue, item.le item' := by
  refine Yields.bind (pollQueue_yields hsound) (fun first s₁ hs₁ => ?_) fun e s₁ hs₁ => ?_
  · obtain ⟨hchanges, es, hes, hfirst⟩ := hs₁
    obtain rfl := Except.ok.inj hes
    refine ⟨trans_of Changes hchanges (.of_keeps rfl), fun es hes e he => ?_⟩
    obtain rfl : sent ++ first = es := Except.ok.inj hes
    refine (List.mem_append.mp he).imp_right fun he => ?_
    obtain ⟨item, packet, rfl, hitem, hle, hperm⟩ := hfirst e he
    exact ⟨item, packet, rfl, Outbox.mem_held.mpr (.inl hitem), fun item' hitem' =>
      hle item' (hperm.mem_iff.mpr (List.mem_cons_of_mem _ hitem'))⟩
  · obtain ⟨-, es, hes, -⟩ := hs₁
    cases hes

variable {s₂ : CommitAPRSAdapter} {P : QueuedFragment → Prop}

/-- A whole poll, where the loop leads to `s₂` or further. -/
theorem pollEmissions_of_loop (hsound : s₂.outbox.Sound)
    (hloop : (s.pending.keys.mapM (pollPending setup now)).Yields { s with immediate := [] }
      fun outcome s' =>
      Changes s₂ s' ∧ ∀ ess, outcome = .ok ess → ∀ e ∈ ess.flatten, ∃ item packet,
        e = .retry item packet ∧ P item) :
    (pollEmissions setup now).Yields s fun outcome s' => Changes s₂ s' ∧
      ∀ es, outcome = .ok es → ∀ e ∈ es, ∀ item, e.item = some item →
        (P item ∧ ∃ packet, e = .retry item packet) ∨
        ((∃ s₃, Changes s₂ s₃ ∧ item ∈ s₃.outbox.held) ∧ ∀ item' ∈ s'.queue, item.le item') := by
  refine Yields.bind (Q := fun outcome s' => outcome = .ok s.immediate ∧
    s' = { s with immediate := [] }) ⟨rfl, rfl⟩ ?_
    fun _ _ h => nomatch h.1
  rintro immediate _ ⟨himmediate, rfl⟩
  refine Yields.get_bind (Yields.bind hloop (fun ess s₃ hs₃ => ?_) fun _ _ hs₃ => ⟨hs₃.1, nofun⟩)
  obtain ⟨hchanges, hsent⟩ := hs₃
  refine Yields.mono (pollQueue_expire_yields (hchanges.sound hsound) _) fun outcome s' hs' => ?_
  obtain ⟨hchanges', hemitted⟩ := hs'
  refine ⟨trans_of Changes hchanges hchanges', fun es hes e he item hitem => ?_⟩
  rcases hemitted es hes e he with he | ⟨item', packet, rfl, hheld, hle⟩
  · rcases List.mem_append.mp he with he | he
    · obtain ⟨packet, -, rfl⟩ := List.mem_map.mp he
      cases hitem
    · obtain ⟨item', packet, rfl, hP⟩ := hsent ess rfl e he
      obtain rfl : item' = item := Option.some.inj hitem
      exact .inl ⟨hP, packet, rfl⟩
  · obtain rfl : item' = item := Option.some.inj hitem
    exact .inr ⟨⟨s₃, hchanges, hheld⟩, hle⟩

/-- What a poll sends was held, and what it sends from the queue comes before all that stays
there. -/
theorem pollEmissions_yields (hsound : s.outbox.Sound) :
    (pollEmissions setup now).Yields s fun outcome s' => ∀ es, outcome = .ok es → ∀ e ∈ es, ∀ item,
      e.item = some item →
      (∃ s₃, Changes s s₃ ∧ item ∈ s₃.outbox.held) ∧
        ((∃ packet, e = .retry item packet) ∨ ∀ item' ∈ s'.queue, item.le item') := by
  have hloop := pollAllPending_yields setup now s.pending.keys { s with immediate := [] } hsound
  refine Yields.mono (pollEmissions_of_loop (P := fun item => ∃ s₃, Changes s s₃ ∧
    item ∈ s₃.outbox.held) hsound
    (Yields.mono hloop fun outcome s' hs' => ?_)) fun outcome s' hs' es hes e he item hitem => ?_
  · refine ⟨hs'.1, fun ess hess e he => ?_⟩
    obtain ⟨item, packet, he', -, hheld⟩ := hs'.2 ess hess e he
    exact ⟨item, packet, he', hheld⟩
  · rcases hs'.2 es hes e he item hitem with ⟨hheld, hretry⟩ | ⟨hheld, hle⟩
    · exact ⟨hheld, .inl hretry⟩
    · exact ⟨hheld, .inr hle⟩

/-! ### The poll in which a packet fails -/

/-- The loop of a poll from `s` comes to a packet that was sent as often as allowed, in the state
`s₁`. -/
structure Exhausted (setup : CommitSetup) (now : ℚ) (s : CommitAPRSAdapter) (key : Str × Str)
    (failed : PendingFragment) (s₁ : CommitAPRSAdapter) : Prop where
  turn : ∃ done rest sent, s.pending.keys = done ++ key :: rest ∧
    (done.mapM (pollPending setup now)).run { s with immediate := [] } = (.ok sent, s₁)
  found : s₁.pending.get? key = some failed
  due : failed.deadline ≤ now
  attempts : setup.config.maxAttempts ≤ failed.attempts

theorem Exhausted.changes (h : Exhausted setup now s key failed s₁) : Changes s s₁ := by
  obtain ⟨done, rest, sent, -, hdone⟩ := h.turn
  have htaken : Changes s { s with immediate := [] } := .of_keeps rfl
  have hbefore : Changes { s with immediate := [] } ((done.mapM (pollPending setup now)).run _).2 :=
    pollAllPending_changes done _
  rw [hdone] at hbefore
  exact trans_of Changes htaken hbefore

/-- The loop goes on after the failure: what it sends has another peer, or it is held after the
failure. -/
theorem Exhausted.loop (h : Exhausted setup now s key failed s₁) (hsound : s.outbox.Sound)
    (hfails : (pollPending setup now key).Yields s₁ fun outcome s' => s' = s₂ ∧
      FailsFast setup failed s₁ outcome s')
    (hsound₂ : s₂.outbox.Sound) :
    (s.pending.keys.mapM (pollPending setup now)).Yields { s with immediate := [] }
      fun outcome s' =>
      Changes s₂ s' ∧ ∀ ess, outcome = .ok ess → ∀ e ∈ ess.flatten, ∃ item packet,
        e = .retry item packet ∧
        (item.peer ≠ key.1 ∨ ∃ s₃, Changes s₂ s₃ ∧ item ∈ s₃.outbox.held) := by
  obtain ⟨done, rest, sent, hkeys, hdone⟩ := h.turn
  have hpeers : key.1 ∉ done.map Prod.fst := by
    have hnodup : (s.outbox.pending.keys.map Prod.fst).Nodup := hsound.single
    rw [show s.outbox.pending.keys = done ++ key :: rest from hkeys, List.map_append] at hnodup
    exact fun hmem => List.disjoint_of_nodup_append hnodup hmem List.mem_cons_self
  have hbefore := pollAllPending_yields setup now done { s with immediate := [] } hsound
  rw [Yields, hdone] at hbefore
  have hafter : ((key :: rest).mapM (pollPending setup now)).Yields s₁
    fun outcome s' => Changes s₂ s' ∧
      ∀ ess, outcome = .ok ess → ∀ e ∈ ess.flatten, ∃ item packet, e = .retry item packet ∧
        ∃ s₃, Changes s₂ s₃ ∧ item ∈ s₃.outbox.held := by
    rw [List.mapM_cons]
    refine Yields.bind hfails (fun es s' hs' => ?_) fun _ _ hs' =>
      ⟨hs'.1 ▸ refl_of Changes _, nofun⟩
    obtain ⟨rfl, hfailed⟩ := hs'
    obtain rfl := hfailed.silent es rfl
    refine Yields.bind (pollAllPending_yields setup now rest s' hsound₂) (fun ess s₃ hs₃ => ?_)
      fun _ _ hs₃ => ⟨hs₃.1, nofun⟩
    refine ⟨hs₃.1, fun ess' hess' e he => ?_⟩
    obtain rfl : [] :: ess = ess' := Except.ok.inj hess'
    obtain ⟨item, packet, he', -, hheld⟩ := hs₃.2 ess rfl e he
    exact ⟨item, packet, he', hheld⟩
  rw [hkeys, Yields, run_mapM_append hdone]
  refine ⟨hafter.1, fun ess hess e he => ?_⟩
  obtain ⟨ess', hess', rfl⟩ := map_eq_ok.mp hess
  rw [List.flatten_append, List.mem_append] at he
  rcases he with he | he
  · obtain ⟨item, packet, he', hpeer, -⟩ := hbefore.2 sent rfl e he
    exact ⟨item, packet, he', .inl fun heq => hpeers (heq ▸ hpeer)⟩
  · obtain ⟨item, packet, he', hheld⟩ := hafter.2 ess' hess' e he
    exact ⟨item, packet, he', .inr hheld⟩

/-- Only a poll sends. -/
theorem mem_emissions {call : Call} {e : Emission} (he : e ∈ emissions setup s call) :
    ∃ now es, call = .poll now ∧ ((pollEmissions setup now).run s).1 = .ok es ∧ e ∈ es := by
  rw [emissions, answer] at he
  cases call with
  | poll now =>
    rw [Call.method, run_bind_pure] at he
    dsimp only at he
    split at he
    next es hes =>
      obtain ⟨es', hes', heq⟩ := map_eq_ok.mp hes
      obtain rfl := Response.packets.inj heq
      exact ⟨now, es', rfl, hes', he⟩
    next => cases he
  | _ =>
    exfalso
    split at he
    next es hes =>
      rw [Call.method, run_bind_pure] at hes
      dsimp only at hes
      obtain ⟨_, _, heq⟩ := map_eq_ok.mp hes
      cases heq
    next => cases he

theorem step_poll : step setup s (.poll now) = ((pollEmissions setup now).run s).2 := by
  rw [step, Call.method, run_bind_pure]

/-! ### Runs -/

variable {core : CoreState} {calls : List Call} {i : ℕ}

/-- In every run: when a packet was sent as often as allowed, its transaction and its response batch
fail at once. What is removed is not sent again and its acknowledgement is ignored, as long as no
fragment that is queued later gets its message id. The queue stays a heap, and what is sent from it
comes before what stays. -/
theorem failed_work_removed (hcall : calls[i]? = some (.poll now))
    (hexhausted : Exhausted setup now (runState setup core calls i) key failed s₁) :
    (pollPending setup now key).Yields s₁ (FailsFast setup failed s₁) ∧
    (∀ item ∈ s₁.outbox.held, failed.item.SharesWork item →
      (∀ j, i ≤ j → ∀ call ∈ calls[j]?, ∀ e ∈ emissions setup (runState setup core calls j) call,
        e.item ≠ some item) ∧
      ∀ j, i < j → j ≤ calls.length → ∀ messageId ∈ item.fragment.messageId, ∀ now',
        (receive setup item.peer (str "ack" ++ messageId) now').run (runState setup core calls j) =
          (.ok .ignored, runState setup core calls j) ∨
        ∃ pending, (runState setup core calls j).pending.get? (item.peer, messageId) =
          some pending ∧
          s₁.order ≤ pending.item.order) ∧
    ∀ j, ∀ call ∈ calls[j]?, Heapq.IsHeap QueuedFragment.le
      (runState setup core calls (j + 1)).queue ∧
      ∀ e ∈ emissions setup (runState setup core calls j) call, ∀ item packet,
        e = .first item packet →
        ∀ item' ∈ (runState setup core calls (j + 1)).queue, item.le item' := by
  have hstate : ∀ {j call}, calls[j]? = some call → j < calls.length ∧
      runState setup core calls (j + 1) = step setup (runState setup core calls j) call := by
    intro j call hj
    obtain ⟨hlt, rfl⟩ := List.getElem?_eq_some_iff.mp hj
    exact ⟨hlt, stateAt_succ hlt⟩
  obtain ⟨hi, hnext⟩ := hstate hcall
  have hsound := runState_sound setup core calls i hi.le
  have hsound₁ : s₁.outbox.Sound := hexhausted.changes.sound hsound
  have hfails : (pollPending setup now key).Yields s₁ (FailsFast setup failed s₁) :=
    pollPending_failsFast hsound₁ hexhausted.found hexhausted.due hexhausted.attempts
  have hsound₂ : ((pollPending setup now key).run s₁).2.outbox.Sound :=
    (pollPending_yields key s₁).1.sound hsound₁
  have hpoll := pollEmissions_of_loop hsound₂ (hexhausted.loop hsound ⟨rfl, hfails⟩ hsound₂)
  rw [step_poll] at hnext
  have hlater : ∀ {j}, i < j → j ≤ calls.length →
      Changes ((pollPending setup now key).run s₁).2 (runState setup core calls j) := fun hij hj =>
    trans_of Changes (hnext ▸ hpoll.1) (runState_changes hij hj)
  refine ⟨hfails, fun item hitem hshares => ⟨fun j hij call hj e he hsame => ?_,
    fun j hij hj messageId hid now' => ?_⟩,
    fun j call hj => ⟨?_, fun e he item packet hfirst item' hitem' => ?_⟩⟩
  · obtain ⟨hlt, -⟩ := hstate hj
    obtain ⟨now', es, rfl, hes, hmem⟩ := mem_emissions he
    rcases hij.eq_or_lt with rfl | hij
    · obtain rfl : now = now' := Call.poll.inj (Option.some.inj (hcall.symm.trans hj))
      have hpeer : item.peer = key.1 :=
        hshares.1.trans (hsound₁.key_eq _ (OrderedDict.get?_eq_some_iff.mp hexhausted.found)).1.symm
      rcases hpoll.2 es hes e hmem item hsame with
        ⟨hne | ⟨s₃, hs₃, hheld⟩, -⟩ | ⟨⟨s₃, hs₃, hheld⟩, -⟩
      · exact hne hpeer
      · exact hfails.not_mem_held hsound₁ hs₃ hitem hshares hheld
      · exact hfails.not_mem_held hsound₁ hs₃ hitem hshares hheld
    · obtain ⟨⟨s₃, hs₃, hheld⟩, -⟩ := pollEmissions_yields
        (runState_sound setup core calls j hlt.le) es hes e hmem item hsame
      exact hfails.not_mem_held hsound₁ (trans_of Changes (hlater hij hlt.le) hs₃) hitem
        hshares hheld
  · cases hfound : (runState setup core calls j).pending.get? (item.peer, messageId) with
    | none => exact .inl (receive_ack_ignored (hsound₁.named item hitem) hid hfound)
    | some pending =>
      exact .inr ⟨pending, rfl, hfails.order_le hsound₁ (hlater hij hj)
        (runState_sound setup core calls j hj) hitem
        hshares hid hfound⟩
  · exact (runState_sound setup core calls (j + 1) (hstate hj).1).heap
  · obtain ⟨hlt, hstep⟩ := hstate hj
    obtain ⟨now', es, rfl, hes, he⟩ := mem_emissions he
    subst hfirst
    rw [hstep, step_poll] at hitem'
    obtain ⟨-, ⟨packet', hretry⟩ | hle⟩ :=
      pollEmissions_yields (runState_sound setup core calls j hlt.le) es hes _ he item rfl
    · cases hretry
    · exact hle item' hitem'

section Capabilities

/-- A station that sends every packet once. -/
def sendsOnce : CommitSetup :=
  { CommitSetup.standard false ⟨true, true⟩ with
    config := { (CommitSetup.standard false ⟨true, true⟩).config with
      maxAttempts := 1
      maxAttempts_pos := Nat.one_pos } }

def newCore : CoreState := ⟨.fresh, 1700000000, .empty⟩

/-- `EA1ABC` asks for the capabilities, does not acknowledge the answer, and asks again. -/
def asksAgain : List Call :=
  [.receive (str "EA1ABC") (str "Q1:000:00/01:AQUAAA") 0, .poll 0, .poll 15,
    .receive (str "EA1ABC") (str "Q1:000:00/01:AQUAAA") 16, .poll 17]

/-- Two frames of one batch, for deliveries that the store does not know. -/
def unknownDeliveries : List Call :=
  [.queueFrame (str "EA2DEF") [1, 5, 0, 0] ⟨false, some (str "EA2DEF", 1),
    some (str "EA2DEF", str "000"), true⟩,
    .queueFrame (str "EA2DEF") [1, 5, 0, 0] ⟨false, some (str "EA2DEF", 2),
      some (str "EA2DEF", str "000"), true⟩,
    .poll 0, .poll 15]

/-- The loop starts with the oldest packet. -/
theorem exists_exhausted {p : PendingFragment → Bool} (h : s.pending.entries.head?.any (fun e =>
      e.2.deadline ≤ now ∧ setup.config.maxAttempts ≤ e.2.attempts ∧ p e.2 = true) = true) :
    ∃ key failed, Exhausted setup now s key failed { s with immediate := [] } ∧
      p failed = true := by
  obtain ⟨⟨key, failed⟩, he, hspec⟩ := (Option.any_eq_true _ _).mp h
  obtain ⟨hdue, hmax, hp⟩ := of_decide_eq_true hspec
  obtain ⟨rest, hrest⟩ := List.head?_eq_some_iff.mp he
  refine ⟨key, failed, ⟨⟨[], rest.map Prod.fst, [], ?_, rfl⟩, ?_, hdue, hmax⟩, hp⟩
  · rw [OrderedDict.keys, hrest, List.map_cons, List.nil_append]
  · exact OrderedDict.get?_eq_some_iff.mpr (hrest ▸ List.mem_cons_self)

theorem failed_work_removed_asksAgain :
    ∃ key failed s₁, Exhausted sendsOnce 15 (runState sendsOnce newCore asksAgain 2) key failed s₁ ∧
      (pollPending sendsOnce 15 key).Yields s₁ (FailsFast sendsOnce failed s₁) := by
  obtain ⟨key, failed, hexhausted, -⟩ : ∃ key failed,
    Exhausted sendsOnce 15 (runState sendsOnce newCore asksAgain 2)
      key failed _ ∧ true = true := exists_exhausted (p := fun _ => true) (by decide +kernel)
  have hcall : asksAgain[2]? = some (.poll 15) := rfl
  exact ⟨key, failed, _, hexhausted, (failed_work_removed hcall hexhausted).1⟩

/-- The answer to the repeated request is of the batch that failed; and when a call of
`mark_aprs_failed` raises, the next one is not made. -/
theorem asksAgain_answered :
    (∃ key failed s₁, Exhausted sendsOnce 15 (runState sendsOnce newCore asksAgain 2) key
      failed s₁ ∧
      ∃ emission ∈ emissions sendsOnce (runState sendsOnce newCore asksAgain 4) (.poll 17),
        ∃ item, emission.item = some item ∧ failed.item.SharesWork item) ∧
    ∃ key failed s₁, Exhausted sendsOnce 15 (runState sendsOnce newCore unknownDeliveries 3) key
      failed s₁ ∧
      ∃ item ∈ s₁.outbox.held, failed.item.SharesWork item ∧
        ∃ d, item.delivery = some d ∧ (d, .failed) ∉
          (runState sendsOnce newCore unknownDeliveries 4).marks := by
  constructor
  · obtain ⟨key, failed, hexhausted, hshares⟩ : ∃ key failed,
        Exhausted sendsOnce 15 (runState sendsOnce newCore asksAgain 2) key failed _ ∧ _ :=
      exists_exhausted (p := fun failed => (emissions sendsOnce
        (runState sendsOnce newCore asksAgain 4) (.poll 17)).any
        fun emission => emission.item.any fun item => failed.item.SharesWork item)
          (by decide +kernel)
    obtain ⟨emission, hmem, hshares⟩ := List.any_eq_true.mp hshares
    obtain ⟨item, hitem, hshares⟩ := (Option.any_eq_true _ _).mp hshares
    exact ⟨key, failed, _, hexhausted, emission, hmem, item, hitem, of_decide_eq_true hshares⟩
  · obtain ⟨key, failed, hexhausted, hshares⟩ : ∃ key failed,
        Exhausted sendsOnce 15 (runState sendsOnce newCore unknownDeliveries 3) key failed _ ∧ _ :=
      exists_exhausted (p := fun failed => failed.item.delivery = some (str "EA2DEF", 1))
        (by decide +kernel)
    have hsent : failed.item ∈ (runState sendsOnce newCore unknownDeliveries 3).outbox.held :=
      Outbox.mem_held.mpr (.inr (Outbox.mem_sent.mpr ⟨_,
        OrderedDict.get?_eq_some_iff.mp hexhausted.found, rfl⟩))
    exact ⟨key, failed, _, hexhausted, failed.item, hsent, .refl _, (str "EA2DEF", 1),
      of_decide_eq_true hshares,
      by decide +kernel⟩

end Capabilities

end CommitAPRSAdapter

end OpenQSP
