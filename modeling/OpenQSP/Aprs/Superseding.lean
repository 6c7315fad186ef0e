import OpenQSP.Aprs.Transmission

/-!
# What a request replaces

A completed request of a peer replaces the responses to its older requests. Whether a response may
be replaced is known of each transaction, but whole batches are dropped: the transactions that
answer one request under one key. A client that uses a transaction id again, after its replay entry
is gone, puts the answers of two requests into one batch.

## Main definitions

* `BurstTx.Supersedes`, `BurstTx.Replaceable` — what the step looks for, and what it may drop
* `ReplacesOnly` — the rest is kept
* `Outbound.BatchesAgree` — no batch mixes the two

## Main results

* `mem_supersedeStaleBatches` — what the step keeps
* **`replacesOnly_iff`**
-/

namespace OpenQSP

open APRSAdapter

/-! ### The two predicates -/

/-- The response batch of the transaction is replaced by the request `current` of `peer`. -/
def BurstTx.Supersedes (peer : Str) (current : TransactionKey) (tx : BurstTx) : Prop :=
  tx.peer = peer ∧ tx.responseBatch ≠ none ∧ tx.responseBatch ≠ some current ∧
    tx.responseSupersedable = true

instance (peer : Str) (current : TransactionKey) (tx : BurstTx) :
    Decidable (tx.Supersedes peer current) :=
  inferInstanceAs (Decidable (_ ∧ _ ∧ _ ∧ _))

/-- The transaction answers an older request of the peer, may be superseded, and is not
proactive. -/
def BurstTx.Replaceable (peer : Str) (current : TransactionKey) (tx : BurstTx) : Prop :=
  tx.Supersedes peer current ∧ tx.priority = 0

instance (peer : Str) (current : TransactionKey) (tx : BurstTx) :
    Decidable (tx.Replaceable peer current) :=
  inferInstanceAs (Decidable (_ ∧ _))

namespace Outbound

/-- A held transaction of the peer has this batch, and is replaced. -/
def Stale (peer : Str) (current : TransactionKey) (o : Outbound)
    (batch : Option TransactionKey) : Prop :=
  ∃ tx ∈ o.held, tx.Supersedes peer current ∧ tx.responseBatch = batch

instance (peer : Str) (current : TransactionKey) (o : Outbound) (batch : Option TransactionKey) :
    Decidable (o.Stale peer current batch) :=
  inferInstanceAs (Decidable (∃ tx ∈ o.held, _))

/-- The transactions that the step looks at: the queued ones of every peer, and the active one of
this peer. -/
def InReach (peer : Str) (o : Outbound) (tx : BurstTx) : Prop :=
  tx ∈ o.queue ∨ o.active.get? peer = some tx

/-- No transaction that must be kept shares its batch with one that is replaced. -/
def BatchesAgree (peer : Str) (current : TransactionKey) (o : Outbound) : Prop :=
  ∀ tx, o.InReach peer tx → o.Stale peer current tx.responseBatch → tx.Replaceable peer current

/-- The step from `o` to `o'` drops replaceable transactions only; the others stay as they were, in
their order. -/
structure ReplacesOnly (peer : Str) (current : TransactionKey) (o o' : Outbound) : Prop where
  queue : o'.queue.Sublist o.queue
  active : o'.active.entries.Sublist o.active.entries
  queue_kept : o'.queue.filter (¬·.Replaceable peer current) =
    o.queue.filter (¬·.Replaceable peer current)
  active_kept : o'.active.entries.filter (¬·.2.Replaceable peer current) =
    o.active.entries.filter (¬·.2.Replaceable peer current)
  rest : o'.nextOrder = o.nextOrder ∧ o'.lastSend = o.lastSend ∧ o'.endings = o.endings

end Outbound

/-! ### What the step keeps -/

/-- Filtering drops nothing of what `keep` selects exactly when it selects that too. -/
theorem filter_filter_eq_iff {α : Type} {l : List α} {p keep : α → Bool} :
    (l.filter p).filter keep = l.filter keep ↔ ∀ a ∈ l, keep a = true → p a = true := by
  constructor
  · intro h a ha hkeep
    have hmem : a ∈ (l.filter p).filter keep := h ▸ List.mem_filter.mpr ⟨ha, hkeep⟩
    exact (List.mem_filter.mp (List.mem_filter.mp hmem).1).2
  · intro h
    rw [List.filter_filter]
    refine List.filter_congr fun a ha => ?_
    cases hkeep : keep a with
    | false => rfl
    | true => rw [h a ha hkeep]; rfl

theorem staleBatch_eq_some {current batch : TransactionKey} {tx : BurstTx} :
    staleBatch current tx.responseBatch tx.responseSupersedable = some batch ↔
      tx.responseBatch = some batch ∧ tx.responseBatch ≠ some current ∧
        tx.responseSupersedable = true := by
  rw [staleBatch]
  split
  · next h => exact ⟨fun hbatch => ⟨hbatch, h⟩, And.left⟩
  · next h => exact ⟨nofun, fun hbatch => absurd hbatch.2 h⟩

variable {setup : Setup} {s : APRSAdapter} {peer : Str} {current : TransactionKey}

/-- The batches that the step collects. -/
def staleBatches (peer : Str) (current : TransactionKey) (s : APRSAdapter) : List TransactionKey :=
  (s.burstQueue.filter fun tx => tx.peer = peer).filterMap
    (fun tx => staleBatch current tx.responseBatch tx.responseSupersedable) ++
  (s.burstActive.get? peer).toList.filterMap
    (fun tx => staleBatch current tx.responseBatch tx.responseSupersedable)

theorem supersedeStaleBatches_eq : supersedeStaleBatches peer current s =
    (supersedeBase peer current s).dropBatches peer
      fun tx => tx.responseBatch.any (· ∈ staleBatches peer current s) := rfl

/-- The active transaction of a peer is a held one of that peer. -/
theorem active_iff_held (h : s.outbound.PeersMatch) {tx : BurstTx} :
    s.burstActive.get? peer = some tx ↔ tx ∈ s.burstActive.values ∧ tx.peer = peer := by
  rw [OrderedDict.get?_eq_some_iff]
  constructor
  · exact fun he => ⟨List.mem_map_of_mem he, h _ he⟩
  · rintro ⟨htx, rfl⟩
    obtain ⟨e, he, rfl⟩ := List.mem_map.mp htx
    rw [h e he]
    exact he

theorem stale_iff (h : s.outbound.PeersMatch) {batch : Option TransactionKey} :
    batch.any (· ∈ staleBatches peer current s) = true ↔ s.outbound.Stale peer current batch := by
  have hmem : ∀ b, b ∈ staleBatches peer current s ↔ s.outbound.Stale peer current (some b) := by
    intro b
    rw [staleBatches, List.mem_append, List.mem_filterMap, List.mem_filterMap]
    constructor
    · rintro (⟨tx, htx, hstale⟩ | ⟨tx, htx, hstale⟩)
      · obtain ⟨hqueued, hpeer⟩ := List.mem_filter.mp htx
        obtain ⟨hbatch, hne, hsupersedable⟩ := staleBatch_eq_some.mp hstale
        exact ⟨tx, List.mem_append_left _ hqueued,
          ⟨of_decide_eq_true hpeer, by simp [hbatch], hne, hsupersedable⟩, hbatch⟩
      · obtain ⟨hactive, hpeer⟩ := (active_iff_held h).mp (Option.mem_toList.mp htx)
        obtain ⟨hbatch, hne, hsupersedable⟩ := staleBatch_eq_some.mp hstale
        exact ⟨tx, List.mem_append_right _ hactive,
          ⟨hpeer, by simp [hbatch], hne, hsupersedable⟩, hbatch⟩
    · rintro ⟨tx, htx, ⟨hpeer, -, hne, hsupersedable⟩, hbatch⟩
      have hstale := staleBatch_eq_some.mpr ⟨hbatch, hne, hsupersedable⟩
      rcases List.mem_append.mp htx with hqueued | hactive
      · exact .inl ⟨tx, List.mem_filter.mpr ⟨hqueued, decide_eq_true hpeer⟩, hstale⟩
      · exact .inr ⟨tx, Option.mem_toList.mpr ((active_iff_held h).mpr ⟨hactive, hpeer⟩), hstale⟩
  cases batch with
  | none =>
    refine ⟨nofun, ?_⟩
    rintro ⟨tx, -, ⟨-, hsome, -⟩, hnone⟩
    exact absurd hnone hsome
  | some b => exact decide_eq_true_iff.trans (hmem b)

/-- The step keeps exactly the queued transactions whose batch is not replaced, and the active ones
of the other peers. -/
theorem supersedeStaleBatches_outbound (h : s.outbound.PeersMatch) :
    (supersedeStaleBatches peer current s).outbound.queue =
        s.outbound.queue.filter (¬s.outbound.Stale peer current ·.responseBatch) ∧
      (supersedeStaleBatches peer current s).outbound.active.entries =
        s.outbound.active.entries.filter
          fun e => ¬(e.1 = peer ∧ s.outbound.Stale peer current e.2.responseBatch) := by
  have hstale : ∀ tx : BurstTx, tx.responseBatch.any (· ∈ staleBatches peer current s) =
      decide (s.outbound.Stale peer current tx.responseBatch) := fun tx =>
    Bool.eq_iff_iff.mpr ((stale_iff h).trans decide_eq_true_iff.symm)
  rw [supersedeStaleBatches_eq, dropBatches]
  constructor
  · refine List.filter_congr fun tx _ => ?_
    rw [hstale, decide_not]
  · refine List.filter_congr fun e _ => ?_
    rw [hstale, decide_not, Bool.decide_and]

/-! ### The result -/

/-- In every state that a run of calls leaves, and in every state that a call goes through, a
completed request drops replaceable transactions only, exactly if no batch mixes them with
others. -/
theorem replacesOnly_iff (setup : Setup) (core : CoreState) (calls : List Call) (log : List Burst)
    (s : APRSAdapter)
    (hvisited : Trace (Outbound.Move setup) (runState setup core calls calls.length).outbound log
      s.outbound)
    (peer : Str) (current : TransactionKey) :
    s.outbound.ReplacesOnly peer current (supersedeStaleBatches peer current s).outbound ↔
      s.outbound.BatchesAgree peer current := by
  have hpeers : s.outbound.PeersMatch :=
    ((runState_sound setup core calls calls.length le_rfl).trace hvisited).peers
  obtain ⟨hqueue, hactive⟩ : (supersedeStaleBatches peer current s).outbound.queue = _ ∧ _ :=
    supersedeStaleBatches_outbound hpeers
  constructor
  · rintro ⟨-, -, hkept, hkept', -⟩ tx hreach hstale
    rw [hqueue, filter_filter_eq_iff] at hkept
    rw [hactive, filter_filter_eq_iff] at hkept'
    by_contra hreplaceable
    rcases hreach with hqueued | hget
    · exact of_decide_eq_true (hkept tx hqueued (decide_eq_true hreplaceable)) hstale
    · have he := OrderedDict.get?_eq_some_iff.mp hget
      exact of_decide_eq_true (hkept' _ he (decide_eq_true hreplaceable)) ⟨rfl, hstale⟩
  · intro hagree
    refine ⟨?_, ?_, ?_, ?_, rfl, rfl, rfl⟩
    · exact hqueue ▸ List.filter_sublist
    · exact hactive ▸ List.filter_sublist
    · rw [hqueue, filter_filter_eq_iff]
      intro tx htx hkeep
      exact decide_eq_true fun hstale => of_decide_eq_true hkeep (hagree tx (.inl htx) hstale)
    · rw [hactive, filter_filter_eq_iff]
      rintro e he hkeep
      refine decide_eq_true fun ⟨hpeer, hstale⟩ =>
        of_decide_eq_true hkeep (hagree e.2 (.inr ?_) hstale)
      exact hpeer ▸ OrderedDict.get?_eq_some_iff.mpr he

section Reuse

/-- A station without a message store. -/
def withoutStores : Setup := .standard false ⟨false, false⟩

/-- Within ten minutes in which nothing is sent, a client uses one transaction id twice: it asks for
the capabilities, and it sends a message, which the station cannot store. -/
def reuses : List Call :=
  [.receive (str "EA1ABC") (str "Q1:000:00/01:AQUAAA") 0,
    .receive (str "EA1ABC") (str "Q1:000:00/01:AQEADQAAAAEGRUEyREVGAXg") 600]

/-- The next request drops the answer to the message, which may not be superseded, together with the
capabilities. -/
theorem not_replacesOnly_reused :
    ¬(runState withoutStores ⟨.fresh, 1700000000, .empty⟩ reuses
      reuses.length).outbound.ReplacesOnly
      (str "EA1ABC") (str "EA1ABC", str "001")
      (supersedeStaleBatches (str "EA1ABC") (str "EA1ABC", str "001")
        (runState withoutStores ⟨.fresh, 1700000000, .empty⟩ reuses reuses.length)).outbound := by
  intro h
  exact absurd (congrArg List.length h.queue_kept) (by decide +kernel)

/-- The station when the answer to the message is gone, and the capabilities are left. -/
def unmixed : APRSAdapter :=
  (runState withoutStores ⟨.fresh, 1700000000, .empty⟩ reuses reuses.length).dropBatches
    (str "EA1ABC") fun tx => !tx.responseSupersedable

theorem replacesOnly_iff_unmixed :
    unmixed.outbound.ReplacesOnly (str "EA1ABC") (str "EA1ABC", str "001")
        (supersedeStaleBatches (str "EA1ABC") (str "EA1ABC", str "001") unmixed).outbound ↔
      unmixed.outbound.BatchesAgree (str "EA1ABC") (str "EA1ABC", str "001") :=
  replacesOnly_iff withoutStores ⟨.fresh, 1700000000, .empty⟩ reuses [] unmixed
    (Trace.single (Outbound.Move.drop _ _ _)) (str "EA1ABC") (str "EA1ABC", str "001")

end Reuse

end OpenQSP
