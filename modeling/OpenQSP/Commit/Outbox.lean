import Mathlib.Data.List.Perm.Subperm
import Mathlib.Logic.Relation
import OpenQSP.Aprs.Fitting
import OpenQSP.Commit.Receive

/-!
# The outbound half of the exported adapter

The queue of fragments, those that wait for their acknowledgement, and those that were acknowledged.
Everything that the adapter does to this half is a sequence of the moves below. A fragment keeps its
number from the time it is queued, and its message id is its own among those of its peer as long as
it is held.

## Main definitions

* `Outbox`, `CommitAPRSAdapter.outbox`, `Outbox.held`
* `Outbox.Move`
* `Outbox.Sound` — what holds in every reachable state
* `Changes` — some moves

## Main results

* `Outbox.Move.held` — what a move does to the fragments that are held
* `Outbox.Move.sound`
* `receive_changes`, `pollEmissions_yields` — what the methods do
-/

namespace OpenQSP

open Py

/-- A Q1 fragment of a valid peer under a message id of two characters. -/
structure QueuedFragment.Named (item : QueuedFragment) : Prop where
  peer : validatePeer item.peer = .ok item.peer
  version : item.fragment.version = 1
  index_lt : item.fragment.index < item.fragment.total
  total_le : item.fragment.total ≤ maxFragments
  messageId : ∃ value, item.fragment.messageId = some (base36Digits 2 value)

/-- Its packet can be written. -/
theorem QueuedFragment.Named.body {item : QueuedFragment} (h : item.Named) : ∃ body,
    item.fragment.body = .ok body := by
  have htotal : item.fragment.total < 36 ^ 2 := h.total_le.trans_lt (by decide)
  rw [APRSFragment.body, if_neg (by rw [h.version]; decide)]
  exact ⟨_, bind_eq_ok.mpr ⟨_, base36_ok (h.index_lt.trans htotal),
    bind_eq_ok.mpr ⟨_, base36_ok htotal, rfl⟩⟩⟩

structure Outbox where
  queue : List QueuedFragment
  pending : OrderedDict (Str × Str) PendingFragment
  order : ℕ
  acked : List QueuedFragment

def CommitAPRSAdapter.outbox (s : CommitAPRSAdapter) : Outbox :=
  ⟨s.queue, s.pending, s.order, s.acked⟩

namespace Outbox

/-- The fragments that wait for their acknowledgement. -/
def sent (o : Outbox) : List QueuedFragment := o.pending.values.map PendingFragment.item

/-- The fragments that are held. -/
def held (o : Outbox) : List QueuedFragment := o.queue ++ o.sent

/-- One thing that the adapter does to its outbound half. -/
inductive Move : Outbox → Outbox → Prop
  | drop (o : Outbox) {queue : List QueuedFragment} (p : QueuedFragment → Bool)
      (q : (Str × Str) × PendingFragment → Bool) (perm : queue.Perm (o.queue.filter p))
      (heap : Heapq.IsHeap QueuedFragment.le o.queue → Heapq.IsHeap QueuedFragment.le queue) :
      Move o { o with queue, pending := o.pending.filter q }
  | ack (o : Outbox) {key : Str × Str} {pending : PendingFragment}
      (found : o.pending.get? key = some pending) :
      Move o { o with pending := o.pending.erase key, acked := o.acked ++ [pending.item] }
  | push (o : Outbox) {item : QueuedFragment} (order_eq : item.order = o.order) (named : item.Named)
      (fresh : ∀ item' ∈ o.queue, item'.peer = item.peer →
        item'.fragment.messageId ≠ item.fragment.messageId)
      (fresh_sent : ∀ key ∈ o.pending.keys, key.1 = item.peer →
        some key.2 ≠ item.fragment.messageId) :
      Move o { o with queue := Heapq.heappush QueuedFragment.le o.queue item, order := o.order + 1 }
  | retry (o : Outbox) {key : Str × Str} {pending : PendingFragment} (deadline : ℚ)
      (found : o.pending.get? key = some pending) :
      Move o { o with pending := o.pending.set key (pending.retried deadline) }
  | start (o : Outbox) {item : QueuedFragment} {rest : List QueuedFragment}
      (packet : OutboundPacket) (deadline : ℚ)
      (perm : o.queue.Perm (item :: rest))
      (heap : Heapq.IsHeap QueuedFragment.le o.queue → Heapq.IsHeap QueuedFragment.le rest)
      (idle : ∀ key ∈ o.pending.keys, key.1 ≠ item.peer) :
      Move o { o with
        queue := rest
        pending := o.pending.set (item.peer, item.fragment.messageId.getD [])
          (item.sent packet deadline) }

/-- What holds in every reachable state. -/
structure Sound (o : Outbox) : Prop where
  heap : Heapq.IsHeap QueuedFragment.le o.queue
  order_lt : ∀ item ∈ o.held, item.order < o.order
  nodup : (o.held.map QueuedFragment.order).Nodup
  named : ∀ item ∈ o.held, item.Named
  ids_nodup : (o.held.map fun item => (item.peer, item.fragment.messageId)).Nodup
  key_eq : ∀ e ∈ o.pending.entries, e.1.1 = e.2.item.peer ∧ some e.1.2 = e.2.item.fragment.messageId
  /-- A peer has at most one unacknowledged packet. -/
  single : (o.pending.keys.map Prod.fst).Nodup

variable {o o' : Outbox}

theorem sent_filter_sublist (o : Outbox) (q : (Str × Str) × PendingFragment → Bool) :
    ((o.pending.filter q).values.map PendingFragment.item).Sublist o.sent :=
  (List.filter_sublist.map _).map _

theorem mem_held {item : QueuedFragment} : item ∈ o.held ↔ item ∈ o.queue ∨ item ∈ o.sent :=
  List.mem_append

theorem mem_sent {item : QueuedFragment} : item ∈ o.sent ↔ ∃ e ∈ o.pending.entries,
    e.2.item = item := by
  simp only [sent, OrderedDict.values, List.mem_map, exists_exists_and_eq_and]

/-- A move other than a push keeps or drops what is held. -/
theorem Move.held (h : Move o o') :
    (o'.order = o.order ∧ o'.held.Subperm o.held) ∨
    ∃ item : QueuedFragment, item.order = o.order ∧ o'.order = o.order + 1 ∧ item.Named ∧
      (∀ item' ∈ o.queue, item'.peer = item.peer →
        item'.fragment.messageId ≠ item.fragment.messageId) ∧
      (∀ key ∈ o.pending.keys, key.1 = item.peer → some key.2 ≠ item.fragment.messageId) ∧
      o'.held.Perm (item :: o.held) := by
  cases h with
  | drop p q perm heap =>
    refine .inl ⟨rfl, (perm.append_right _).subperm.trans ?_⟩
    exact (List.filter_sublist.append (o.sent_filter_sublist q)).subperm
  | ack found => exact .inl ⟨rfl, ((List.Sublist.refl _).append (o.sent_filter_sublist _)).subperm⟩
  | @push item order_eq named fresh fresh_sent =>
    exact .inr ⟨item, order_eq, rfl, named, fresh, fresh_sent,
      (Heapq.heappush_perm _ item).append_right _⟩
  | retry deadline found =>
    refine .inl ⟨rfl, (List.Perm.of_eq ?_).subperm⟩
    rw [Outbox.held, Outbox.held, Outbox.sent, Outbox.sent]
    exact congrArg (o.queue ++ ·) (OrderedDict.map_values_set found rfl)
  | @start item rest packet deadline perm heap idle =>
    refine .inl ⟨rfl, List.Perm.subperm ?_⟩
    have hvalues : (o.pending.set (item.peer, item.fragment.messageId.getD [])
      (item.sent packet deadline)).values =
        o.pending.values ++ [item.sent packet deadline] := by
      rw [OrderedDict.values, OrderedDict.entries_set_of_notMem fun hmem => idle _ hmem rfl,
        List.map_append]
      rfl
    rw [Outbox.held, Outbox.held, Outbox.sent, Outbox.sent, hvalues, List.map_append,
      List.map_singleton,
      ← List.append_assoc]
    exact (List.perm_append_singleton _ _).trans (perm.symm.append_right _)

/-- A message id that is not in use is that of no fragment. -/
theorem Sound.id_ne (hsound : o.Sound) {item item' : QueuedFragment} (hitem' : item' ∈ o.held)
    (fresh : ∀ item' ∈ o.queue, item'.peer = item.peer →
      item'.fragment.messageId ≠ item.fragment.messageId)
    (fresh_sent : ∀ key ∈ o.pending.keys, key.1 = item.peer → some key.2 ≠ item.fragment.messageId)
    (hpeer : item'.peer = item.peer) : item'.fragment.messageId ≠ item.fragment.messageId := by
  rcases mem_held.mp hitem' with hqueued | hsent
  · exact fresh item' hqueued hpeer
  · obtain ⟨e, he, rfl⟩ := mem_sent.mp hsent
    obtain ⟨hkey, hid⟩ := hsound.key_eq e he
    exact hid ▸ fresh_sent e.1 (List.mem_map_of_mem he) (hkey.trans hpeer)

theorem nodup_map_of_subperm {α β : Type} {f : α → β} {l l' : List α} (h : l.Subperm l')
    (hnodup : (l'.map f).Nodup) :
    (l.map f).Nodup := by
  obtain ⟨l'', hperm, hsub⟩ := h
  exact (hperm.map f).nodup_iff.mp (hnodup.sublist (hsub.map f))

/-- What a move does to the fragments that wait for their acknowledgement. -/
theorem Move.keys (h : Move o o') (hsound : o.Sound) :
    (∀ e ∈ o'.pending.entries, e.1.1 = e.2.item.peer ∧ some e.1.2 = e.2.item.fragment.messageId) ∧
      (o'.pending.keys.map Prod.fst).Nodup := by
  have hfilter : ∀ q : (Str × Str) × PendingFragment → Bool,
      (∀ e ∈ (o.pending.filter q).entries, e.1.1 = e.2.item.peer ∧
        some e.1.2 = e.2.item.fragment.messageId) ∧
      ((o.pending.filter q).keys.map Prod.fst).Nodup := fun q =>
    ⟨fun e he => hsound.key_eq e (OrderedDict.mem_entries_filter.mp he).1,
      hsound.single.sublist ((List.filter_sublist.map _).map _)⟩
  cases h with
  | drop p q => exact hfilter q
  | ack found => exact hfilter _
  | push => exact ⟨hsound.key_eq, hsound.single⟩
  | @retry key pending deadline found =>
    have hmem := OrderedDict.get?_eq_some_iff.mp found
    refine ⟨fun e he => ?_, ?_⟩
    · rcases OrderedDict.mem_entries_set.mp he with rfl | ⟨he, -⟩
      · exact hsound.key_eq (key, pending) hmem
      · exact hsound.key_eq e he
    · show ((OrderedDict.assign _ _ _).map Prod.fst |>.map Prod.fst).Nodup
      rw [OrderedDict.keys_assign, if_pos (List.mem_map_of_mem hmem)]
      exact hsound.single
  | @start item rest packet deadline perm heap idle =>
    refine ⟨fun e he => ?_, ?_⟩
    · rcases OrderedDict.mem_entries_set.mp he with rfl | ⟨he, -⟩
      · have hmem : item ∈ o.held := mem_held.mpr (.inl (perm.mem_iff.mpr List.mem_cons_self))
        obtain ⟨value, hid⟩ := (hsound.named item hmem).messageId
        refine ⟨rfl, ?_⟩
        show some (item.fragment.messageId.getD []) = item.fragment.messageId
        rw [hid]
        rfl
      · exact hsound.key_eq e he
    · have hnew : (item.peer, item.fragment.messageId.getD []) ∉ o.pending.entries.map Prod.fst :=
        fun hmem =>
        idle _ hmem rfl
      show ((OrderedDict.assign _ _ _).map Prod.fst |>.map Prod.fst).Nodup
      rw [OrderedDict.keys_assign, if_neg hnew, List.map_append, List.map_singleton]
      refine List.nodup_append.mpr ⟨hsound.single, List.nodup_singleton _, ?_⟩
      rintro a ha b hb rfl
      obtain ⟨key, hkey, rfl⟩ := List.mem_map.mp ha
      exact idle key hkey (List.mem_singleton.mp hb)

theorem Move.isHeap (h : Move o o') (hheap : Heapq.IsHeap QueuedFragment.le o.queue) :
    Heapq.IsHeap QueuedFragment.le o'.queue := by
  cases h with
  | drop p q perm heap => exact heap hheap
  | push => exact Heapq.heappush_isHeap hheap _
  | start packet deadline perm heap idle => exact heap hheap
  | _ => exact hheap

theorem Move.sound (h : Move o o') (hsound : o.Sound) : o'.Sound := by
  obtain ⟨hkeys, hsingle⟩ := h.keys hsound
  have hheap := h.isHeap hsound.heap
  rcases h.held with ⟨horder, hsub⟩ | ⟨item, hitem, horder, hnamed, hfresh, hfresh', hperm⟩
  · have hmem : ∀ item ∈ o'.held, item ∈ o.held := fun item hitem => hsub.subset hitem
    refine ⟨hheap, fun item hitem => horder ▸ hsound.order_lt item (hmem item hitem), ?_,
      fun item hitem => hsound.named item (hmem item hitem), ?_, hkeys, hsingle⟩
    · exact nodup_map_of_subperm hsub hsound.nodup
    · exact nodup_map_of_subperm hsub hsound.ids_nodup
  · have hmem : ∀ item' ∈ o'.held, item' = item ∨ item' ∈ o.held := fun item' hitem' =>
      List.mem_cons.mp (hperm.mem_iff.mp hitem')
    refine ⟨hheap, fun item' hitem' => ?_, ?_, fun item' hitem' => ?_, ?_, hkeys, hsingle⟩
    · rw [horder]
      rcases hmem item' hitem' with rfl | hold
      · exact hitem ▸ Nat.lt_succ_self _
      · exact Nat.lt_succ_of_lt (hsound.order_lt item' hold)
    · refine (hperm.map _).nodup_iff.mpr (List.nodup_cons.mpr ⟨fun hold => ?_, hsound.nodup⟩)
      obtain ⟨item', hitem', heq⟩ := List.mem_map.mp hold
      exact (hsound.order_lt item' hitem').ne (heq.trans hitem)
    · rcases hmem item' hitem' with rfl | hold
      · exact hnamed
      · exact hsound.named item' hold
    · refine (hperm.map _).nodup_iff.mpr (List.nodup_cons.mpr ⟨fun hold => ?_, hsound.ids_nodup⟩)
      obtain ⟨item', hitem', heq⟩ := List.mem_map.mp hold
      obtain ⟨hpeer, hid⟩ := Prod.mk.inj heq
      exact hsound.id_ne hitem' hfresh hfresh' hpeer hid

/-! ### What is held later -/

/-- What is held later was held before, or it was queued since. -/
structure Later (o o' : Outbox) : Prop where
  order_le : o.order ≤ o'.order
  held_old : ∀ item ∈ o'.held, item.order < o.order → item ∈ o.held

instance : IsPreorder Outbox Later where
  refl _ := ⟨le_rfl, fun _ h _ => h⟩
  trans _ _ _ h h' := ⟨h.order_le.trans h'.order_le, fun item hitem hlt =>
    h.held_old item (h'.held_old item hitem (hlt.trans_le h.order_le)) hlt⟩

theorem Move.later (h : Move o o') : Later o o' := by
  rcases h.held with ⟨horder, hsub⟩ | ⟨item, hitem, horder, -, -, -, hperm⟩
  · exact ⟨horder.ge, fun item hitem _ => hsub.subset hitem⟩
  · refine ⟨horder ▸ Nat.le_succ _, fun item' hitem' hlt => ?_⟩
    rcases List.mem_cons.mp (hperm.mem_iff.mp hitem') with rfl | hold
    · exact absurd hitem hlt.ne
    · exact hold

end Outbox

end OpenQSP
