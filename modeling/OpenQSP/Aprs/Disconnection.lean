import OpenQSP.Aprs.Queueing
import OpenQSP.Server.Pending

/-!
# Losing the connection

`connection_lost` is a method of the base class. It gives up what the tables of the base class hold,
and clears the packets that the next `poll` would return first. The burst layer puts nothing into
those tables, and its own transactions stay where they are.

## Main definitions

* `APRSAdapter.deliveries` — the deliveries that are queued or in flight
* `Disconnects` — nothing of the link survives its loss

## Main results

* `connectionLost_run` — what the loss does in every reachable state
* `disconnects_iff` — when it leaves nothing behind
* **`connectionLost_disconnects_iff`**
-/

namespace OpenQSP

open APRSAdapter Method

variable {setup : Setup} {s s' : APRSAdapter}

/-- The outbound transaction that a control names. -/
def BurstControl.transactionId : BurstControl → Str
  | ack transactionId => transactionId
  | missing transactionId _ => transactionId

/-- The deliveries that are queued or in flight, in the tables of both layers. -/
def APRSAdapter.deliveries (s : APRSAdapter) : List Delivery :=
  s.queue.filterMap (·.delivery) ++ s.pending.values.filterMap (·.delivery) ++
    s.outbound.held.filterMap (·.delivery)

/-- From `s` to `s'` the link was lost: nothing of it is left, and what it carried has failed. -/
structure Disconnects (setup : Setup) (s s' : APRSAdapter) : Prop where
  counts : s'.queuedCount = 0 ∧ s'.pendingCount = 0
  immediate_nil : s'.immediate = []
  /-- The next `poll` sends no data packet. -/
  silent : ∀ now emissions, ((pollEmissions setup now).run s').1 = .ok emissions →
    burstsOf now emissions = []
  /-- A late control for a transaction from before the loss is ignored. -/
  ignores : ∀ tx ∈ s.outbound.held, ∀ body control, parseBurstControl body = some control →
    control.transactionId = tx.transactionId →
    ∀ now, ((receive setup tx.peer body now).run s').1 = .ok .ignored
  fails : ∀ d ∈ s.deliveries, s'.core.aprsStatus d = some .failed
  kept : s'.reassembly = s.reassembly ∧ s'.replay = s.replay

/-- Nothing waits in the tables of the base class, so that nothing is given up. -/
theorem connectionLost_run (hqueue : s.queue = []) (hpending : s.pending = .empty) :
    (connectionLost setup).run s = (.ok (), { s with immediate := [] }) := by
  rw [connectionLost, run_get_bind, run_modify_bind]
  simp only [hqueue, hpending]
  rfl

theorem step_connectionLost (hqueue : s.queue = []) (hpending : s.pending = .empty) :
    step setup s .connectionLost = { s with immediate := [] } := by
  show ((connectionLost setup >>= fun _ => pure Response.none).run s).2 = _
  rw [run_bind_of_ok (connectionLost_run hqueue hpending)]
  rfl

/-- A transaction has at least one fragment. -/
theorem Outbound.Sound.fragments_pos {o : Outbound} (h : o.Sound setup) {tx : BurstTx}
    (htx : tx ∈ o.held) : 0 < tx.fragments.length := by
  have hfragments : fragmentFrameV2 tx.frame tx.transactionId = .ok tx.fragments :=
    (h.carries tx.parcel (List.mem_map_of_mem htx)).1
  obtain ⟨decoded, hdecoded⟩ := decodes_of_fragmentFrameV2 hfragments
  have hmin := (length_of_decodeFrameWithFlags hdecoded).1
  have hlength : tx.fragments.length = fragmentCount tx.frame :=
    length_of_fragmentFrameV2 hfragments
  rw [headerSize] at hmin
  rw [hlength, fragmentCount]
  omega

/-- Where the counts are zero there is no transaction. -/
theorem Outbound.Sound.held_eq_nil (h : s.outbound.Sound setup)
    (hcounts : s.queuedCount = 0 ∧ s.pendingCount = 0) : s.outbound.held = [] := by
  rw [List.eq_nil_iff_forall_not_mem]
  intro tx htx
  have hpos := h.fragments_pos htx
  have hsum : (s.outbound.held.map fun tx => tx.fragments.length).sum = 0 := by
    rw [Outbound.held, List.map_append, List.sum_append]
    exact Nat.add_eq_zero_iff.mpr hcounts
  have hzero := List.sum_eq_zero_iff.mp hsum _ (List.mem_map_of_mem htx)
  omega

/-- The loss leaves nothing behind exactly if the burst layer holds no transaction. -/
theorem disconnects_iff (h : s.outbound.Sound setup) :
    Disconnects setup s (step setup s .connectionLost) ↔ s.outbound.held = [] := by
  rw [step_connectionLost h.base.1 h.base.2]
  constructor
  · intro hlost
    exact h.held_eq_nil hlost.counts
  · intro hheld
    obtain ⟨hqueue, hactive⟩ := List.append_eq_nil_iff.mp hheld
    change s.burstQueue = [] at hqueue
    change s.burstActive.values = [] at hactive
    refine ⟨?_, rfl, fun now emissions hpoll => ?_, fun tx htx => ?_, fun d hd => ?_, rfl, rfl⟩
    · rw [queuedCount, pendingCount, hqueue, hactive]
      exact ⟨rfl, rfl⟩
    · obtain ⟨retries, starts, -, hretries, hstarts, hok, -⟩ : Yields _ _ _ :=
        pollEmissions_trace (s := { s with immediate := [] }) setup now h.nodup_queue
      rw [hok emissions hpoll]
      -- a retry would be of an active transaction, a start of a queued one
      have hretries : retries = [] := List.eq_nil_iff_forall_not_mem.mpr fun b hb => by
        have hmem := hretries b hb
        rw [hactive] at hmem
        exact List.not_mem_nil hmem
      have hstarts : starts = [] := List.eq_nil_iff_forall_not_mem.mpr fun b hb => by
        have hmem := (hstarts b hb).1
        rw [hqueue] at hmem
        exact List.not_mem_nil hmem
      rw [hretries, hstarts]
      rfl
    · rw [hheld] at htx
      exact absurd htx List.not_mem_nil
    · rw [deliveries, hheld, show s.queue = [] from h.base.1,
        show s.pending = .empty from h.base.2] at hd
      exact absurd hd List.not_mem_nil

/-- In every reachable state the loss of the connection leaves nothing behind exactly if no
transaction waits or is in flight. -/
theorem connectionLost_disconnects_iff (setup : Setup) (core : CoreState) (calls : List Call) :
    Disconnects setup (runState setup core calls calls.length)
      (step setup (runState setup core calls calls.length) .connectionLost) ↔
    (runState setup core calls calls.length).outbound.held = [] :=
  disconnects_iff (runState_sound setup core calls calls.length le_rfl)

/-- The answer to a request waits when the connection is lost, and goes on waiting. -/
theorem connectionLost_keepsAnswer :
    ¬Disconnects (.standard true ⟨true, true⟩)
      (runState (.standard true ⟨true, true⟩) ⟨.fresh, 1700000000, .empty⟩
        [.receive (str "EA1ABC") (str "Q1:000:00/01:AQUAAA") 0] 1)
      (step (.standard true ⟨true, true⟩)
        (runState (.standard true ⟨true, true⟩) ⟨.fresh, 1700000000, .empty⟩
          [.receive (str "EA1ABC") (str "Q1:000:00/01:AQUAAA") 0] 1) .connectionLost) := by
  have hcount : (step (.standard true ⟨true, true⟩)
      (runState (.standard true ⟨true, true⟩) ⟨.fresh, 1700000000, .empty⟩
        [.receive (str "EA1ABC") (str "Q1:000:00/01:AQUAAA") 0] 1) .connectionLost).queuedCount =
      1 := by decide +kernel
  intro h
  have hzero := h.counts.1
  rw [hcount] at hzero
  cases hzero

end OpenQSP
