import Mathlib.Data.List.Perm.Subperm
import Mathlib.Logic.Relation
import OpenQSP.Aprs.Encoding
import OpenQSP.Aprs.Inbound
import OpenQSP.Lib.Trace

/-!
# The outbound half of the adapter

The queue of transactions, the active one of each peer, and when something was last sent to a
peer. Everything that the adapter does to this half is a sequence of the moves below, and only
two of them send packets: the start of a queued transaction, and a retry of an active one.

What a transaction carries never changes. A move other than an enqueue drops some of the parcels
that the adapter holds, or none.

## Main definitions

* `Outbound`, `APRSAdapter.outbound`
* `Parcel` — what never changes about a transaction
* `Burst`, `Outbound.Move`
* `Outbound.Change`, `Changes`, `Quiet` — moves that send nothing

## Main results

* `Outbound.Move.parcels` — what a move does to the parcels
-/

namespace OpenQSP

open APRSAdapter Method

structure Outbound where
  queue : List BurstTx
  active : OrderedDict Str BurstTx
  nextOrder : ℕ
  lastSend : OrderedDict Str ℚ
  endings : List Ending
  reports : List Report
  /-- The tables of the base class. -/
  baseQueue : List Queued
  basePending : OrderedDict (Str × Str) Pending

def APRSAdapter.outbound (s : APRSAdapter) : Outbound :=
  ⟨s.burstQueue, s.burstActive, s.burstOrder, s.lastSend, s.endings, s.reports, s.queue, s.pending⟩

/-- What is reported to Core when a transaction ends. -/
def Ending.report (e : Ending) : Option Report :=
  e.delivery.map fun delivery => ⟨some e.order, delivery, e.acknowledged⟩

/-- What never changes about a transaction. -/
structure Parcel where
  peer : Str
  transactionId : Str
  frame : Bytes
  fragments : List APRSFragment
  packets : List OutboundPacket
  priority : ℕ
  order : ℕ
  delivery : Option Delivery

def BurstTx.parcel (tx : BurstTx) : Parcel :=
  ⟨tx.peer, tx.transactionId, tx.frame, tx.fragments, tx.packets, tx.priority, tx.order,
    tx.delivery⟩

/-- The parcel is its frame under its transaction id, as the packets of its fragments. -/
def Parcel.Carries (setup : Setup) (p : Parcel) : Prop :=
  fragmentFrameV2 p.frame p.transactionId = .ok p.fragments ∧
    ∃ bodies, p.fragments.mapM APRSFragment.body = .ok bodies ∧
      p.packets = bodies.map fun body => ⟨setup.serviceCallsign, p.peer, body, false⟩

/-- The parcel is for a valid address. -/
def Parcel.Addressed (p : Parcel) : Prop := validatePeer p.peer = .ok p.peer

/-- Packets of one transaction that `poll` sends at one time. -/
structure Burst where
  time : ℚ
  tx : BurstTx
  packets : List OutboundPacket

namespace Outbound

/-- The transactions that the adapter holds. -/
def held (o : Outbound) : List BurstTx := o.queue ++ o.active.values

/-- What the adapter holds. -/
def parcels (o : Outbound) : List Parcel := o.held.map BurstTx.parcel

/-- The active transactions are stored under their peers. -/
def PeersMatch (o : Outbound) : Prop := ∀ e ∈ o.active.entries, e.2.peer = e.1

/-- Nothing was sent to the peer less than `min_interval` ago. -/
def Clear (setup : Setup) (peer : Str) (now : ℚ) (o : Outbound) : Prop :=
  ∀ last ∈ o.lastSend.get? peer, setup.config.minInterval ≤ now - last

/-- The active transaction of a peer ended. -/
def finished (peer : Str) (tx : BurstTx) (acknowledged : Bool) (o : Outbound) : Outbound :=
  { o with
    active := o.active.erase peer
    endings := o.endings ++ [⟨tx.order, tx.delivery, acknowledged⟩]
    reports := o.reports ++ (Ending.report ⟨tx.order, tx.delivery, acknowledged⟩).toList }

/-- One thing that the adapter does to its outbound half. -/
inductive Move (setup : Setup) : Outbound → Option Burst → Outbound → Prop
  /-- Transactions are superseded, or replaced by a compact result. -/
  | drop (o : Outbound) (p : BurstTx → Bool) (q : Str × BurstTx → Bool) :
      Move setup o none { o with queue := o.queue.filter p, active := o.active.filter q }
  /-- Nothing is put into the tables of the base class, and nothing is reported about them while
  they are empty. -/
  | base (o : Outbound) {queue : List Queued} {pending : OrderedDict (Str × Str) Pending}
      {reports : List Report} (queue_nil : o.baseQueue = [] → queue = [])
      (pending_empty : o.basePending = .empty → pending = .empty)
      (reports_eq : o.baseQueue = [] → o.basePending = .empty → reports = o.reports) :
      Move setup o none { o with baseQueue := queue, basePending := pending, reports := reports }
  | enqueue (o : Outbound) {tx : BurstTx} (order_eq : tx.order = o.nextOrder)
      (attempts_eq : tx.attempts = 0)
      (fresh : ∀ tx' ∈ o.queue, tx'.peer = tx.peer → tx'.transactionId ≠ tx.transactionId)
      (fresh_active : ∀ tx' ∈ o.active.get? tx.peer, tx'.transactionId ≠ tx.transactionId)
      (fits : (o.parcels.map (·.fragments.length)).sum + tx.fragments.length ≤
        setup.config.queueCapacity)
      (carries : tx.parcel.Carries setup) (addressed : tx.parcel.Addressed) :
      Move setup o none { o with queue := o.queue ++ [tx], nextOrder := o.nextOrder + 1 }
  /-- The peer asks for fragments, or what is due must wait. -/
  | adjust (o : Outbound) {peer : Str} {tx tx' : BurstTx} (active : o.active.get? peer = some tx)
      (parcel_eq : tx'.parcel = tx.parcel) (attempts_eq : tx'.attempts = tx.attempts) :
      Move setup o none { o with active := o.active.set peer tx' }
  /-- The peer acknowledges its active transaction, or it is given up. -/
  | finish (o : Outbound) {peer : Str} {tx : BurstTx} (active : o.active.get? peer = some tx)
      (acknowledged : Bool) :
      Move setup o none (o.finished peer tx acknowledged)
  | retry (o : Outbound) {peer : Str} {tx : BurstTx} {now : ℚ} (indices : List ℕ)
      (active : o.active.get? peer = some tx) (attempts_lt : tx.attempts < setup.config.maxAttempts)
      (clear : o.Clear setup peer now) :
      Move setup o (some ⟨now, tx, tx.packetsAt indices⟩) { o with
        active := o.active.set peer (tx.retried (now + setup.config.ackTimeout))
        lastSend := o.lastSend.set peer now }
  | start (o : Outbound) {tx : BurstTx} {now : ℚ} (queued : tx ∈ o.queue)
      (idle : tx.peer ∉ o.active.keys) (clear : o.Clear setup tx.peer now) :
      Move setup o (some ⟨now, tx, tx.packets⟩) { o with
        queue := o.queue.erase tx
        active := o.active.set tx.peer (tx.started (now + setup.config.ackTimeout))
        lastSend := o.lastSend.set tx.peer now }

/-! ### What the adapter holds -/

section Parcels

variable {setup : Setup} {o o' : Outbound} {b : Option Burst}

theorem parcel_retried (tx : BurstTx) (deadline : ℚ) : (tx.retried deadline).parcel = tx.parcel :=
  rfl

theorem parcel_started (tx : BurstTx) (deadline : ℚ) : (tx.started deadline).parcel = tx.parcel :=
  rfl

theorem parcels_eq (o : Outbound) :
    o.parcels = o.queue.map BurstTx.parcel ++ o.active.values.map BurstTx.parcel := List.map_append

/-- An adjusted transaction carries what it carried. -/
theorem parcels_set_active {peer : Str} {tx tx' : BurstTx} (h : o.active.get? peer = some tx)
    (hparcel : tx'.parcel = tx.parcel) (lastSend : OrderedDict Str ℚ) :
    ({ o with active := o.active.set peer tx', lastSend } : Outbound).parcels = o.parcels := by
  rw [parcels_eq, parcels_eq, OrderedDict.map_values_set h hparcel]

/-- A started transaction moves from the queue to the active ones. -/
theorem parcels_start {tx tx' : BurstTx} (hqueued : tx ∈ o.queue) (hidle : tx.peer ∉ o.active.keys)
    (hparcel : tx'.parcel = tx.parcel) (lastSend : OrderedDict Str ℚ) :
    ({ o with
      queue := o.queue.erase tx
      active := o.active.set tx.peer tx'
      lastSend } : Outbound).parcels.Perm o.parcels := by
  have hvalues : (o.active.set tx.peer tx').values = o.active.values ++ [tx'] := by
    rw [OrderedDict.values, OrderedDict.entries_set_of_notMem hidle, List.map_append]
    rfl
  rw [parcels_eq, parcels_eq, hvalues, List.map_append, List.map_singleton, hparcel,
    ← List.append_assoc]
  have hqueue : (tx.parcel :: (o.queue.erase tx).map BurstTx.parcel).Perm
      (o.queue.map BurstTx.parcel) := (List.perm_cons_erase hqueued).symm.map BurstTx.parcel
  exact (List.perm_append_singleton _ _).trans (hqueue.append_right _)

/-- A move other than an enqueue keeps or drops what the adapter holds. -/
theorem Move.parcels (hpeers : o.PeersMatch) (h : Move setup o b o') :
    (o'.nextOrder = o.nextOrder ∧ o'.parcels.Subperm o.parcels) ∨
    (∃ p : Parcel, p.order = o.nextOrder ∧ o'.nextOrder = o.nextOrder + 1 ∧
      (∀ p' ∈ o.parcels, p'.peer = p.peer → p'.transactionId ≠ p.transactionId) ∧
      (o.parcels.map (·.fragments.length)).sum + p.fragments.length ≤ setup.config.queueCapacity ∧
      p.Carries setup ∧ p.Addressed ∧ o'.parcels.Perm (p :: o.parcels)) := by
  cases h with
  | drop p q =>
    refine .inl ⟨rfl, ?_⟩
    rw [parcels_eq, parcels_eq]
    exact ((List.filter_sublist.map _).append ((List.filter_sublist.map _).map _)).subperm
  | base => exact .inl ⟨rfl, List.Subperm.refl _⟩
  | @enqueue tx order_eq _ fresh fresh_active fits carries addressed =>
    refine .inr ⟨tx.parcel, order_eq, rfl, fun p hp hpeer => ?_, fits, carries, addressed, ?_⟩
    · obtain ⟨tx', htx', rfl⟩ := List.mem_map.mp hp
      rcases List.mem_append.mp htx' with htx' | htx'
      · exact fresh tx' htx' hpeer
      · obtain ⟨e, he, rfl⟩ := List.mem_map.mp htx'
        have hkey : e.1 = tx.peer := (hpeers e he).symm.trans hpeer
        exact fresh_active e.2 (OrderedDict.get?_eq_some_iff.mpr (hkey ▸ he))
    rw [parcels_eq, parcels_eq, List.map_append, List.map_singleton, List.append_assoc]
    exact List.perm_middle
  | adjust active parcel_eq _ =>
    exact .inl ⟨rfl, (List.Perm.of_eq (parcels_set_active active parcel_eq _)).subperm⟩
  | finish active acknowledged =>
    refine .inl ⟨rfl, ?_⟩
    rw [parcels_eq, parcels_eq]
    exact ((List.Sublist.refl _).append ((List.filter_sublist.map _).map _)).subperm
  | retry indices active _ _ =>
    exact .inl ⟨rfl, (List.Perm.of_eq (parcels_set_active active (parcel_retried _ _) _)).subperm⟩
  | start queued idle _ =>
    exact .inl ⟨rfl, (parcels_start queued idle (parcel_started _ _) _).subperm⟩

/-- What is held after a move was held before with the same parcel, or it is new. -/
theorem Move.held_parcel (hpeers : o.PeersMatch) (h : Move setup o b o') {tx' : BurstTx}
    (htx' : tx' ∈ o'.held) :
    (∃ tx ∈ o.held, tx.parcel = tx'.parcel) ∨ tx'.order = o.nextOrder := by
  have hparcel : tx'.parcel ∈ o'.parcels := List.mem_map_of_mem htx'
  rcases h.parcels hpeers with ⟨-, hsub⟩ | ⟨p, horder, -, -, -, -, -, hperm⟩
  · exact .inl (List.mem_map.mp (hsub.subset hparcel))
  · rcases List.mem_cons.mp (hperm.mem_iff.mp hparcel) with heq | hold
    · exact .inr ((congrArg Parcel.order heq).trans horder)
    · exact .inl (List.mem_map.mp hold)

/-- Every active transaction stays under its peer. -/
theorem Move.peersMatch (hpeers : o.PeersMatch) (h : Move setup o b o') : o'.PeersMatch := by
  have hset : ∀ {peer : Str} {tx tx' : BurstTx}, o.active.get? peer = some tx → tx'.peer = tx.peer →
      ∀ e ∈ (o.active.set peer tx').entries, e.2.peer = e.1 := by
    intro peer tx tx' hactive htx' e he
    rcases OrderedDict.mem_entries_set.mp he with rfl | ⟨he, -⟩
    · exact htx'.trans (hpeers _ (OrderedDict.get?_eq_some_iff.mp hactive))
    · exact hpeers e he
  cases h with
  | drop p q => exact fun e he => hpeers e (OrderedDict.mem_entries_filter.mp he).1
  | base => exact hpeers
  | enqueue => exact hpeers
  | adjust active parcel_eq _ => exact hset active (congrArg Parcel.peer parcel_eq)
  | finish => exact fun e he => hpeers e (OrderedDict.mem_entries_erase.mp he).1
  | retry indices active _ _ => exact hset active rfl
  | start queued idle _ =>
    intro e he
    rcases OrderedDict.mem_entries_set.mp he with rfl | ⟨he, -⟩
    · rfl
    · exact hpeers e he

end Parcels

/-! ### Moves that send nothing -/

/-- A move that sends nothing and leaves the active transactions as they are, but for those it
drops. -/
structure Change (setup : Setup) (o o' : Outbound) : Prop where
  move : Move setup o none o'
  active : ∀ peer tx, o'.active.get? peer = some tx → o.active.get? peer = some tx

namespace Change

variable {setup : Setup} {o o' : Outbound}

theorem of_move (h : Move setup o none o') (hactive : o'.active = o.active) : Change setup o o' :=
  ⟨h, fun _ _ htx => hactive ▸ htx⟩

theorem drop (p : BurstTx → Bool) (q : Str × BurstTx → Bool) :
    Change setup o { o with queue := o.queue.filter p, active := o.active.filter q } := by
  refine ⟨.drop o p q, fun peer tx h => ?_⟩
  rw [OrderedDict.get?_eq_some_iff] at h ⊢
  exact (OrderedDict.mem_entries_filter.mp h).1

theorem finish {peer : Str} {tx : BurstTx} (active : o.active.get? peer = some tx)
    (acknowledged : Bool) : Change setup o (o.finished peer tx acknowledged) := by
  refine ⟨.finish o active acknowledged, fun peer' tx' h => ?_⟩
  rw [OrderedDict.get?_eq_some_iff] at h ⊢
  exact (OrderedDict.mem_entries_erase.mp h).1

end Change

end Outbound

/-! ### Methods that send nothing -/

/-- The method does not change the outbound half. -/
abbrev KeepsOutbound {α : Type} (m : Adapter α) : Prop := m.Moves (Keeps APRSAdapter.outbound)

/-- Some moves that send nothing lead from one outbound half to the other. -/
def Quiet (setup : Setup) (s s' : APRSAdapter) : Prop :=
  Silent (Outbound.Move setup) s.outbound s'.outbound

/-- Some of them that change no active transaction lead from one outbound half to the other. -/
def Changes (setup : Setup) (s s' : APRSAdapter) : Prop :=
  Relation.ReflTransGen (Outbound.Change setup) s.outbound s'.outbound

section Changes

variable {setup : Setup} {peer : Str} {key : TransactionKey} {now : ℚ}

instance : IsPreorder APRSAdapter (Changes setup) where
  refl _ := Relation.ReflTransGen.refl
  trans _ _ _ h h' := Relation.ReflTransGen.trans h h'

theorem Changes.of_keeps {s s' : APRSAdapter} (h : Keeps APRSAdapter.outbound s s') :
    Changes setup s s' := by
  rw [Changes, show s'.outbound = s.outbound from h]

theorem KeepsOutbound.changes {α : Type} {m : Adapter α} (h : KeepsOutbound m) :
    m.Moves (Changes setup) := h.mono fun _ _ => Changes.of_keeps

theorem Changes.single {s s' : APRSAdapter} (h : Outbound.Change setup s.outbound s'.outbound) :
    Changes setup s s' := Relation.ReflTransGen.single h

theorem Changes.quiet {s s' : APRSAdapter} (h : Changes setup s s') : Quiet setup s s' := by
  rw [Quiet]
  rw [Changes] at h
  generalize s.outbound = o, s'.outbound = o' at h ⊢
  induction h with
  | refl => exact refl_of _ _
  | tail _ last ih => exact trans_of _ ih (Silent.single last.move)

instance : IsPreorder APRSAdapter (Quiet setup) where
  refl s := refl_of (Silent (Outbound.Move setup)) s.outbound
  trans _ _ _ h h' := trans_of (Silent (Outbound.Move setup)) h h'

theorem onCore_keepsOutbound {α : Type} (m : Method PyError CoreState α) :
    KeepsOutbound (onCore m) := fun _ => rfl

theorem markDelivery_keepsOutbound (mark : Delivery → Method PyError CoreState Unit)
    (delivery : Option Delivery) : KeepsOutbound (markDelivery mark delivery) := by
  cases delivery with
  | none => exact Moves.pure _
  | some delivery => exact onCore_keepsOutbound _

/-- A report changes nothing but the list of reports. -/
theorem reportDelivery_outbound (order : Option ℕ) (delivered : Bool)
    (delivery : Option Delivery) :
    (reportDelivery setup order delivered delivery).Moves fun s s' => s'.outbound =
      { s.outbound with
        reports := s.reports ++
          (delivery.map fun d => (⟨order, d, delivered⟩ : Report)).toList } := by
  intro s
  cases delivery with
  | none =>
    show s.outbound = { s.outbound with reports := s.reports ++ [] }
    rw [List.append_nil]
    rfl
  | some delivery => rfl

/-- The outbound half but for the reports. -/
def APRSAdapter.unreported (s : APRSAdapter) : Outbound := { s.outbound with reports := [] }

theorem outbound_of_unreported {s s' : APRSAdapter} (h : Keeps APRSAdapter.unreported s s') :
    s'.outbound = { s.outbound with reports := s'.reports } :=
  congrArg (fun o : Outbound => { o with reports := s'.reports }) h

theorem reportDelivery_unreported (setup : Setup) (order : Option ℕ) (delivered : Bool)
    (delivery : Option Delivery) :
    (reportDelivery setup order delivered delivery).Moves (Keeps APRSAdapter.unreported) := by
  intro s
  rw [Keeps, APRSAdapter.unreported, reportDelivery_outbound order delivered delivery s]
  rfl

/-- Several reports, none of them if there is nothing to report. -/
theorem reportDeliveries_outbound (order : Option ℕ) (delivered : Bool)
    (deliveries : List Delivery) :
    (deliveries.forM fun delivery =>
      reportDelivery setup order delivered (some delivery)).Moves fun s s' =>
      ∃ reports, (deliveries = [] → reports = s.reports) ∧
        s'.outbound = { s.outbound with reports := reports } := by
  cases deliveries with
  | nil => exact fun s => ⟨s.reports, fun _ => rfl, rfl⟩
  | cons delivery deliveries =>
    have hkeeps := Moves.forM (R := Keeps APRSAdapter.unreported) (l := delivery :: deliveries)
      fun d _ => reportDelivery_unreported setup order delivered (some d)
    exact fun s => ⟨_, nofun, outbound_of_unreported (hkeeps s)⟩

theorem sendImmediately_keepsOutbound (packet : OutboundPacket) :
    KeepsOutbound (sendImmediately packet) := Moves.modify fun _ => rfl

theorem confirmInbound_keepsOutbound (messageId : Option Str) (accepted : Bool) :
    KeepsOutbound (confirmInbound setup peer messageId accepted) := by
  refine Moves.ite (Moves.pure _) ?_
  cases messageId with
  | none => exact Moves.pure _
  | some messageId => exact sendImmediately_keepsOutbound _

theorem onReassembly_keepsOutbound {α : Type} (f : Reassembler → α × Reassembler) :
    KeepsOutbound (onReassembly f) := fun _ => rfl

theorem onReplay_keepsOutbound {α : Type} (f : ReplayCache → α × ReplayCache) :
    KeepsOutbound (onReplay f) := fun _ => rfl

theorem activateAprs_keepsOutbound (responses : List Bytes) :
    KeepsOutbound (activateAprs setup peer responses) := by
  refine Moves.ite (Moves.pure _) (Moves.bind (Moves.ofExcept _) fun _ => ?_)
  refine Moves.ite (Moves.pure _) (Moves.bind (Moves.ofExcept _) fun _ => ?_)
  exact onCore_keepsOutbound _

theorem refreshAprsPresence_keepsOutbound : KeepsOutbound (refreshAprsPresence setup peer) :=
  Moves.ite (Moves.bind (Moves.ofExcept _) fun _ => onCore_keepsOutbound _) (Moves.pure _)

/-! #### The tables of the base class -/

/-- Nothing is put into the tables of the base class, and nothing is reported about them while they
are empty. -/
theorem Changes.of_base {s s' : APRSAdapter} {queue : List Queued}
    {pending : OrderedDict (Str × Str) Pending} {reports : List Report}
    (hs' : s'.outbound =
      { s.outbound with baseQueue := queue, basePending := pending, reports := reports })
    (hqueue : s.queue = [] → queue = []) (hpending : s.pending = .empty → pending = .empty)
    (hreports : s.queue = [] → s.pending = .empty → reports = s.reports) : Changes setup s s' := by
  refine Changes.single ?_
  rw [hs']
  exact .of_move (.base s.outbound hqueue hpending hreports) rfl

theorem Changes.base (s : APRSAdapter) (p : Queued → Bool) (q : (Str × Str) × Pending → Bool) :
    Changes setup s { s with queue := s.queue.filter p, pending := s.pending.filter q } := by
  refine Changes.of_base rfl (fun h => ?_) (fun h => ?_) fun _ _ => rfl
  · rw [h]
    rfl
  · rw [h]
    rfl

theorem reconcileMessageCursor_changes (callsign : Str) (since : ℤ) :
    (reconcileMessageCursor setup peer callsign since).Moves (Changes setup) := by
  intro s
  show Yields _ s fun _ s' => Changes setup s s'
  refine Yields.get_bind (Yields.modify_bind ?_)
  refine Yields.mono (Yields.of_moves (reportDeliveries_outbound _ _ _)) fun _ s' hs' => ?_
  obtain ⟨reports, hnone, hs'⟩ := hs'
  refine Changes.of_base hs' (fun h => ?_) (fun h => ?_) fun hqueue hpending => hnone ?_
  · rw [h]
    rfl
  · rw [h]
    rfl
  · rw [hqueue, hpending]
    rfl

theorem reconcileRequest_changes (callsign : Str) (request : ProtocolObject) :
    (reconcileRequest setup peer callsign request).Moves (Changes setup) := by
  cases request with
  | getNewMessages request => exact reconcileMessageCursor_changes _ _
  | _ => exact Moves.pure _

theorem receiveLegacyAck_changes (messageId : Str) :
    (receiveLegacyAck setup peer messageId).Moves (Changes setup) := by
  intro s
  show Yields _ s fun _ s' => Changes setup s s'
  refine Yields.get_bind ?_
  split
  · exact refl_of (Changes setup) s
  next pending hpending =>
  -- There is a pending packet, so the tables of the base class are not empty.
  have hnonempty : s.pending ≠ .empty := by
    rintro hempty
    rw [hempty] at hpending
    cases hpending
  have hchanges : ∀ {s' : APRSAdapter} {reports : List Report},
      s'.outbound = { s.outbound with
        basePending := s.pending.erase (peer, messageId), reports := reports } →
      Changes setup s s' := fun hs' =>
    Changes.of_base hs' id (fun h => absurd h hnonempty) fun _ h => absurd h hnonempty
  refine Yields.modify_bind (Yields.get_bind ?_)
  refine Yields.bind_of_moves (Moves.when (reportDelivery_unreported _ _ _ _)) ?_ ?_
  · exact fun _ _ hs' => hchanges (outbound_of_unreported hs')
  · exact fun _ _ hs' => hchanges (outbound_of_unreported hs')

theorem connectionLost_changes : (connectionLost setup).Moves (Changes setup) := by
  intro s
  show Yields _ s fun _ s' => Changes setup s s'
  refine Yields.get_bind (Yields.modify_bind ?_)
  refine Yields.mono (Yields.of_moves (reportDeliveries_outbound _ _ _)) fun _ s' hs' => ?_
  obtain ⟨reports, hnone, hs'⟩ := hs'
  refine Changes.of_base hs' (fun _ => rfl) (fun _ => rfl) fun hqueue hpending => hnone ?_
  rw [hqueue, hpending]
  rfl

/-! #### Dropping -/

theorem Changes.dropBatches (p : BurstTx → Bool) (s : APRSAdapter) :
    Changes setup s (s.dropBatches peer p) := Changes.single (.drop _ _)

theorem Changes.supersedeStaleBatches (s : APRSAdapter) :
    Changes setup s (supersedeStaleBatches peer key s) :=
  trans_of (Changes setup) (Changes.base s _ _) (Changes.dropBatches _ (supersedeBase peer key s))

theorem Changes.supersedeForProactive (s : APRSAdapter) :
    Changes setup s (supersedeForProactive peer s) := by
  rw [OpenQSP.supersedeForProactive]
  split
  · exact refl_of _ _
  · split
    · exact refl_of _ _
    · exact Changes.single (.drop _ _)

/-! #### Queueing -/

/-- The identifier that the loop finds is not in use. -/
theorem allocateFrom_notMem {active : List Str} {tries next : ℕ} {candidate : Str}
    (h : (allocateFrom active tries next).1 = some candidate) : candidate ∉ active := by
  induction tries generalizing next with
  | zero => cases h
  | succ tries ih =>
    rw [allocateFrom] at h
    split at h
    · next hfree => exact Option.some.inj h ▸ hfree
    · exact ih h

/-- The result of the loop, whether it found an identifier or not. -/
theorem allocate_run {s : APRSAdapter} {found : Option Str × ℕ}
    (h : allocateFrom (s.activeTransactions peer) 256 ((s.nextTransaction.get? peer).getD 0) =
      found) :
    (allocate peer).run s =
      (match found.1 with
        | some candidate => .ok candidate
        | none => .error ⟨.overflowError, "peer Q2 transaction ID space exhausted"⟩,
      { s with nextTransaction := s.nextTransaction.set peer found.2 }) := by
  rw [allocate, run_get_bind]
  dsimp only
  rw [h]
  rcases found with ⟨_ | candidate, next⟩ <;> rfl

theorem allocate_yields (s : APRSAdapter) : (allocate peer).Yields s fun outcome s' =>
    s'.outbound = s.outbound ∧ ∀ transactionId, outcome = .ok transactionId →
      transactionId ∉ s.activeTransactions peer := by
  obtain ⟨found, hfound⟩ : ∃ found, allocateFrom (s.activeTransactions peer) 256
    ((s.nextTransaction.get? peer).getD 0) = found := ⟨_, rfl⟩
  rw [Yields, allocate_run hfound]
  refine ⟨rfl, fun transactionId h => ?_⟩
  rcases found with ⟨_ | candidate, next⟩
  · cases h
  · rw [← Except.ok.inj h]
    exact allocateFrom_notMem (congrArg Prod.fst hfound)

theorem queued_mem_activeTransactions {s : APRSAdapter} {tx : BurstTx} (h : tx ∈ s.burstQueue)
    (hpeer : tx.peer = peer) : tx.transactionId ∈ s.activeTransactions peer := by
  rw [activeTransactions, List.mem_append, List.mem_append]
  exact .inl (.inr (List.mem_map.mpr ⟨tx, List.mem_filter.mpr ⟨h, decide_eq_true hpeer⟩, rfl⟩))

theorem active_mem_activeTransactions {s : APRSAdapter} {tx : BurstTx}
    (h : s.burstActive.get? peer = some tx) : tx.transactionId ∈ s.activeTransactions peer := by
  rw [activeTransactions, List.mem_append, h]
  exact .inr (List.mem_singleton_self _)

theorem packetsOf_eq_ok {fragments : List APRSFragment}
    {packets : { l : List OutboundPacket // l.length = fragments.length }}
    (h : packetsOf setup peer fragments = .ok packets) :
    ∃ bodies, fragments.mapM APRSFragment.body = .ok bodies ∧
      packets.1 = bodies.map fun body => ⟨setup.serviceCallsign, peer, body, false⟩ := by
  induction fragments with
  | nil =>
    obtain rfl := Except.ok.inj h
    exact ⟨[], rfl, rfl⟩
  | cons fragment fragments ih =>
    obtain ⟨body, hbody, h⟩ := Py.bind_eq_ok.mp h
    obtain ⟨rest, hrest, h⟩ := Py.bind_eq_ok.mp h
    obtain ⟨bodies, hbodies, hpackets⟩ := ih hrest
    obtain rfl := Except.ok.inj h
    refine ⟨body :: bodies, ?_, ?_⟩
    · rw [List.mapM_cons, hbody, Py.ok_bind, hbodies]
      rfl
    · rw [List.map_cons, ← hpackets]

/-- The fragments that the adapter holds. -/
theorem queuedCount_add_pendingCount (s : APRSAdapter) :
    s.queuedCount + s.pendingCount = (s.outbound.parcels.map (·.fragments.length)).sum := by
  rw [queuedCount, pendingCount, Outbound.parcels_eq, List.map_append, List.sum_append,
    List.map_map,
    List.map_map]
  rfl

/-- A proactive frame makes room for itself. -/
def makeRoom (peer : Str) (options : QueueOptions) (s : APRSAdapter) : APRSAdapter :=
  if options.proactive then supersedeForProactive peer s else s

/-- The transaction of a frame when it is queued as the `order`-th one. -/
structure BurstTx.Queues (peer : Str) (frame : Bytes) (options : QueueOptions) (order : ℕ)
    (tx : BurstTx) :
    Prop where
  peer_eq : tx.peer = peer
  frame_eq : tx.frame = frame
  fragments_eq : fragmentFrameV2 frame tx.transactionId = .ok tx.fragments
  priority_eq : tx.priority = if options.proactive then 1 else 0
  order_eq : tx.order = order
  delivery_eq : tx.delivery = options.delivery
  responseBatch_eq : tx.responseBatch = options.responseBatch
  responseSupersedable_eq : tx.responseSupersedable = options.responseSupersedable

theorem yields_makeRoom {α : Type} {options : QueueOptions} {f : Unit → Adapter α}
    {s : APRSAdapter} {P : Py α → APRSAdapter → Prop}
    (h : (f ⟨⟩).Yields (makeRoom peer options s) P) :
    (Method.when options.proactive (modify (supersedeForProactive peer)) >>= f).Yields s P := by
  rw [makeRoom] at h
  cases hproactive : options.proactive with
  | false =>
    rw [hproactive] at h
    exact h
  | true =>
    rw [hproactive] at h
    exact h

theorem makeRoom_burstOrder (options : QueueOptions) (s : APRSAdapter) :
    (makeRoom peer options s).burstOrder = s.burstOrder := by
  rw [makeRoom, supersedeForProactive]
  repeat' split
  all_goals rfl

theorem Changes.makeRoom (options : QueueOptions) (s : APRSAdapter) :
    Changes setup s (makeRoom peer options s) := by
  rw [OpenQSP.makeRoom]
  split
  · exact Changes.supersedeForProactive s
  · exact refl_of _ _

/-- `queue_frame` sends nothing. When it returns, the frame waits under the id that it returned. -/
theorem queueFrame_yields (frame : Bytes) (options : QueueOptions) (s : APRSAdapter) :
    (queueFrame setup peer frame options).Yields s fun outcome s' => Changes setup s s' ∧
      ∀ transactionId, outcome = .ok transactionId → ∃ tx ∈ s'.burstQueue,
        tx.transactionId = transactionId ∧ tx.Queues peer frame options s.burstOrder := by
  have herror : ∀ {e : PyError} {s' : APRSAdapter}, Changes setup s s' → Changes setup s s' ∧
      ∀ transactionId, (.error e : Py Str) = .ok transactionId → ∃ tx ∈ s'.burstQueue,
        tx.transactionId = transactionId ∧ tx.Queues peer frame options s.burstOrder :=
    fun h => ⟨h, fun _ h => by cases h⟩
  refine Yields.ofExcept_bind (fun peer' hpeer => ?_) fun _ _ => herror (refl_of _ s)
  have haddressed : validatePeer peer = .ok peer := by rw [hpeer, validatePeer_eq_ok hpeer]
  refine yields_makeRoom ?_
  have hroom : Changes setup s (makeRoom peer options s) := Changes.makeRoom options s
  have horder : (makeRoom peer options s).burstOrder = s.burstOrder := makeRoom_burstOrder options s
  generalize makeRoom peer options s = t at hroom horder ⊢
  refine Yields.bind (allocate_yields t) (fun transactionId t₁ ht₁ => ?_)
    fun _ _ h => herror (trans_of _ hroom (Changes.of_keeps h.1))
  have hquiet : Changes setup s t₁ := trans_of _ hroom (Changes.of_keeps ht₁.1)
  refine Yields.ofExcept_bind (fun fragments hfragments => ?_) fun _ _ => herror hquiet
  refine Yields.get_bind (Yields.ofExcept_bind (fun _ hfits => ?_) fun _ _ => herror hquiet)
  refine Yields.ofExcept_bind (fun packets hpackets => ?_) fun _ _ => herror hquiet
  obtain ⟨bodies, hbodies, hpackets⟩ := packetsOf_eq_ok hpackets
  rw [raiseIf_eq_ok, not_lt, queuedCount_add_pendingCount] at hfits
  have hunused := ht₁.2 transactionId rfl
  have hqueue : t₁.outbound.queue = t.burstQueue := congrArg Outbound.queue ht₁.1
  have hactive : t₁.outbound.active = t.burstActive := congrArg Outbound.active ht₁.1
  have horder₁ : t₁.burstOrder = s.burstOrder := (congrArg Outbound.nextOrder ht₁.1).trans horder
  constructor
  · refine trans_of (Changes setup) hquiet ?_
    refine Changes.single ⟨.enqueue t₁.outbound rfl rfl ?_ ?_ hfits ?_ haddressed, fun _ _ h => h⟩
    · intro tx htx hpeer heq
      rw [hqueue] at htx
      have hused := queued_mem_activeTransactions htx hpeer
      rw [heq] at hused
      exact hunused hused
    · intro tx htx heq
      rw [hactive] at htx
      have hused := active_mem_activeTransactions htx
      rw [heq] at hused
      exact hunused hused
    · exact ⟨hfragments, bodies, hbodies, hpackets⟩
  · intro id hid
    obtain rfl := Except.ok.inj hid
    exact ⟨_, List.mem_append_right _ (List.mem_singleton_self _), rfl, rfl, rfl, hfragments, rfl,
      horder₁, rfl, rfl, rfl⟩

theorem queueFrame_changes (frame : Bytes) (options : QueueOptions) :
    (queueFrame setup peer frame options).Moves (Changes setup) := fun s =>
  (queueFrame_yields frame options s).1

theorem deliverMessage_changes (message : Message) (endpoint : Str) :
    (deliverMessage setup message endpoint).Moves (Changes setup) := by
  refine Moves.bind (Moves.ofExcept _) fun _ => ?_
  exact Moves.bind (queueFrame_changes _ _) fun _ => (onCore_keepsOutbound _).changes

theorem routeMessage_changes (message : Message) :
    (routeMessage setup message).Moves (Changes setup) := by
  refine Moves.ite (Moves.catchError ?_ fun _ => Moves.pure _) (Moves.pure _)
  refine Moves.get_bind fun s => ?_
  refine Moves.bind (Moves.ofExcept _) fun endpoint => ?_
  cases endpoint with
  | none => exact Moves.pure _
  | some endpoint => exact deliverMessage_changes _ _

/-! #### Requests -/

theorem executeFrame_changes (callsign : Str) (frame : Bytes) :
    (executeFrame setup key callsign frame).Moves (Changes setup) := by
  have hdispatch : ∀ callsign request, (dispatchRouted setup callsign request).Moves
    (Changes setup) := by
    intro callsign request
    refine Moves.get_bind fun s => ?_
    refine Moves.bind ((onCore_keepsOutbound _).changes) fun result => ?_
    exact Moves.bind (Moves.forM fun _ _ => routeMessage_changes _) fun _ => Moves.pure _
  exact fun s => handleFrame_moves hdispatch callsign frame s

theorem queueResponses_changes (supersedable : Bool) (responses : List Bytes) :
    (queueResponses setup key supersedable responses).Moves (Changes setup) := by
  refine Moves.forM fun response _ => Moves.bind (Moves.ofExcept _) fun delivery => ?_
  exact Moves.bind (queueFrame_changes _ _) fun _ => (markDelivery_keepsOutbound _ _).changes

theorem finishRequest_changes (messageId : Option Str) (callsign : Str) (request : ProtocolObject)
    (frame : Bytes) (responses : List Bytes) :
    (finishRequest setup key messageId callsign request frame responses now).Moves
      (Changes setup) := by
  have hnote : ∀ s, Changes setup s (noteCompleted setup key callsign now s) := fun s =>
    Changes.of_keeps rfl
  refine Moves.bind ((activateAprs_keepsOutbound _).changes) fun _ => ?_
  refine Moves.bind (Moves.modify Changes.supersedeStaleBatches) fun _ => ?_
  refine Moves.bind (Moves.modify fun _ => Changes.of_keeps rfl) fun _ => ?_
  refine Moves.bind (Moves.modify hnote) fun _ => Moves.ite ?_ ?_
  · refine Moves.bind (Moves.ofExcept _) fun _ => ?_
    exact Moves.bind ((confirmInbound_keepsOutbound _ _).changes) fun _ => Moves.pure _
  · exact Moves.bind (queueResponses_changes _ _) fun _ => Moves.pure _

theorem completeRequest_changes (messageId : Option Str) (frame : Bytes) :
    (completeRequest setup key messageId frame now).Moves (Changes setup) := by
  have hconfirm : ∀ (p : Prop) [Decidable p] (accepted : Bool),
      (Method.when p (confirmInbound setup key.1 messageId accepted)).Moves (Changes setup) :=
    fun p _ accepted => Moves.when ((confirmInbound_keepsOutbound _ _).changes)
  refine Moves.bind (Moves.ofExcept _) fun request => Moves.ite ?_ ?_
  · exact Moves.bind (hconfirm _ _) fun _ => Moves.pure _
  · refine Moves.bind (hconfirm _ _) fun _ => ?_
    refine Moves.bind (Moves.ofExcept _) fun callsign => ?_
    refine Moves.bind (reconcileRequest_changes _ _) fun _ => ?_
    exact Moves.bind (executeFrame_changes _ _) fun _ => finishRequest_changes _ _ _ _ _

theorem replayRequest_changes (messageId : Option Str) (cached : Replay) (frame : Bytes) :
    (replayRequest setup key messageId cached frame).Moves (Changes setup) := by
  have hconfirm : ∀ accepted, (confirmInbound setup key.1 messageId accepted).Moves
    (Changes setup) :=
    fun accepted => (confirmInbound_keepsOutbound _ _).changes
  refine Moves.ite (Moves.bind (Moves.when (hconfirm _)) fun _ => Moves.pure _) ?_
  refine Moves.bind (Moves.ofExcept _) fun request => ?_
  refine Moves.bind ((activateAprs_keepsOutbound _).changes) fun _ => ?_
  refine Moves.bind (Moves.modify Changes.supersedeStaleBatches) fun _ => Moves.ite ?_ ?_
  · exact Moves.bind (Moves.ofExcept _) fun _ => Moves.bind (hconfirm _) fun _ => Moves.pure _
  · refine Moves.bind (Moves.when (hconfirm _)) fun _ => ?_
    refine Moves.bind (Moves.forM fun _ _ => ?_) fun _ => Moves.pure _
    exact Moves.bind (queueFrame_changes _ _) fun _ => Moves.pure _

theorem receiveFragment_changes (messageId : Option Str) (fragment : APRSFragment) :
    (receiveFragment setup peer messageId fragment now).Moves (Changes setup) := by
  have hconfirm : ∀ accepted, (Method.when (commitAckRequested messageId = true)
      (confirmInbound setup peer messageId accepted)).Moves (Changes setup) :=
    fun accepted => Moves.when ((confirmInbound_keepsOutbound _ _).changes)
  refine Moves.bind ((onReassembly_keepsOutbound _).changes) fun result => ?_
  rcases result with e | frame | frame
  · exact Moves.ite (Moves.bind (hconfirm _) fun _ => Moves.pure _) (Moves.raise _)
  · exact Moves.bind (hconfirm _) fun _ => Moves.pure _
  · refine Moves.bind ((onReplay_keepsOutbound _).changes) fun cached => ?_
    cases cached with
    | none => exact completeRequest_changes _ _
    | some cached => exact replayRequest_changes _ _ _

theorem receiveCommit_changes (body : Str) : (receiveCommit setup peer body now).Moves
    (Changes setup) := by
  rw [receiveCommit]
  split
  · exact Moves.ite (Moves.pure _) (Moves.raise _)
  split
  · exact receiveLegacyAck_changes _
  refine Moves.bind (Moves.when ((confirmInbound_keepsOutbound _ _).changes)) fun _ => ?_
  split
  · refine Moves.ite (Moves.bind (Moves.when ?_) fun _ => Moves.pure _) (Moves.raise _)
    exact (confirmInbound_keepsOutbound _ _).changes
  · exact receiveFragment_changes _ _

/-! #### Controls and fragments -/

/-- The active transaction of a peer ends, and its delivery is reported. -/
theorem reportEnd_outbound {tx : BurstTx} (acknowledged : Bool) (s : APRSAdapter) :
    (reportDelivery setup (some tx.order) acknowledged tx.delivery).Yields
      (s.endActive peer tx acknowledged) fun _ s' =>
      s'.outbound = s.outbound.finished peer tx acknowledged :=
  reportDelivery_outbound _ _ _ (s.endActive peer tx acknowledged)

theorem Changes.finished {s s' : APRSAdapter} {tx : BurstTx} {acknowledged : Bool}
    (h : s.burstActive.get? peer = some tx)
    (hs' : s'.outbound = s.outbound.finished peer tx acknowledged) : Changes setup s s' := by
  refine Changes.single ?_
  rw [hs']
  exact .finish h acknowledged

theorem completeOutbound_changes {s : APRSAdapter} {tx : BurstTx}
    (h : s.burstActive.get? peer = some tx) :
    (completeOutbound setup peer tx).Yields s fun _ s' => Changes setup s s' :=
  Yields.modify_bind (Yields.mono (reportEnd_outbound true s) fun _ _ hs' => .finished h hs')

theorem failOutbound_changes {s : APRSAdapter} {tx : BurstTx}
    (h : s.burstActive.get? peer = some tx) :
    (failOutbound setup peer tx).Yields s fun _ s' => Changes setup s s' ∧
      s'.outbound = s.outbound.finished peer tx false := by
  have hend : ∀ s', s'.outbound = s.outbound.finished peer tx false →
      Changes setup s s' ∧ s'.outbound = s.outbound.finished peer tx false := fun s' hs' =>
    ⟨.finished h hs', hs'⟩
  refine Yields.modify_bind (Yields.bind (reportEnd_outbound false s) ?_ ?_)
  · exact fun _ s' hs' => hend _ hs'
  · exact fun _ s' hs' => hend _ hs'

/-- A control is for the active transaction of its peer. Only a request for fragments changes that;
it is answered as such. -/
theorem receiveControl_yields (control : BurstControl) (s : APRSAdapter) :
    (receiveControl setup peer control).Yields s fun outcome s' =>
      (Changes setup s s' ∧ outcome ≠ .ok .repairRequested) ∨
      ∃ tx indices, control = .missing tx.transactionId indices ∧
        s.burstActive.get? peer = some tx ∧
        tx.validMissing indices ≠ ∅ ∧ outcome = .ok .repairRequested ∧
        s'.outbound = { s.outbound with active := s.burstActive.set peer (tx.repaired
          indices) } := by
  refine Yields.get_bind ?_
  cases hactive : s.burstActive.get? peer with
  | none => exact .inl ⟨refl_of _ s, nofun⟩
  | some tx =>
    -- The transaction is still the active one when the presence has been refreshed.
    have hactive' : ∀ {s' : APRSAdapter}, s'.outbound = s.outbound →
      s'.burstActive.get? peer = some tx :=
      fun hs' => (congrArg (fun o : Outbound => o.active.get? peer) hs').trans hactive
    cases control with
    | ack transactionId =>
      show Yields (if _ then _ else _) _ _
      split
      · exact .inl ⟨refl_of _ s, nofun⟩
      refine Yields.bind_of_moves refreshAprsPresence_keepsOutbound (fun _ s' hs' => ?_)
        fun _ _ hs' => .inl ⟨Changes.of_keeps hs', nofun⟩
      refine Yields.bind (completeOutbound_changes (hactive' hs')) (fun _ s'' hs'' => ?_)
        fun _ s'' hs'' => ?_
      · exact .inl ⟨trans_of _ (Changes.of_keeps hs') hs'', nofun⟩
      · exact .inl ⟨trans_of _ (Changes.of_keeps hs') hs'', nofun⟩
    | missing transactionId indices =>
      show Yields (if _ then _ else _) _ _
      split
      · exact .inl ⟨refl_of _ s, nofun⟩
      next hid =>
      split
      · exact .inl ⟨refl_of _ s, nofun⟩
      next hvalid =>
      refine Yields.bind_of_moves refreshAprsPresence_keepsOutbound (fun _ s' hs' => ?_)
        fun _ _ hs' => .inl ⟨Changes.of_keeps hs', nofun⟩
      refine .inr ⟨tx, indices, by rw [not_not.mp hid], rfl, hvalid, rfl, ?_⟩
      show { s'.outbound with active := s'.burstActive.set peer (tx.repaired indices) } = _
      rw [show s'.burstActive = s.burstActive from congrArg Outbound.active hs',
        show s'.outbound = s.outbound from hs']

theorem compactStoredResult_changes : (compactStoredResult setup key now).Moves
    (Changes setup) := by
  refine Moves.bind ((onReplay_keepsOutbound _).changes) fun found => ?_
  cases found with
  | none => exact Moves.pure _
  | some replay =>
    refine Moves.bind (Moves.ofExcept _) fun _ => Moves.when ?_
    refine Moves.bind (Moves.modify (Changes.dropBatches _)) fun _ => ?_
    exact Moves.bind (Moves.ofExcept _) fun _ => (sendImmediately_keepsOutbound _).changes

theorem acknowledgeRequest_changes : (acknowledgeRequest setup key now).Moves (Changes setup) := by
  refine Moves.bind (Moves.ofExcept _) fun _ => ?_
  exact Moves.bind ((sendImmediately_keepsOutbound _).changes) fun _ => compactStoredResult_changes

theorem receiveBurst_changes {body : Str} (hcontrol : parseBurstControl body = none) :
    (receiveBurst setup peer body now).Moves (Changes setup) := by
  have hprogress : ∀ progress : APRSAdapter → OrderedDict TransactionKey RxProgress,
      (modify fun s => { s with rxProgress := progress s } : Adapter Unit).Moves (Changes setup) :=
    fun _ => Moves.modify fun _ => Changes.of_keeps rfl
  rw [receiveBurst]
  split
  · exact Moves.ite (Moves.pure _) (Moves.raise _)
  split
  · next control h => cases hcontrol.symm.trans h
  split
  · exact Moves.ite (receiveCommit_changes _) (Moves.raise _)
  · refine Moves.bind (hprogress _) fun _ => ?_
    refine Moves.bind (receiveCommit_changes _) fun disposition => ?_
    refine Moves.bind (Moves.when acknowledgeRequest_changes) fun _ => ?_
    exact Moves.bind (Moves.when (hprogress _)) fun _ => Moves.pure _

/-- A packet that is no control drops active transactions at most. -/
theorem receive_changes {body : Str} (hcontrol : parseBurstControl body = none) :
    (receive setup peer body now).Moves (Changes setup) := by
  rw [receive]
  split
  · exact Moves.ite (receiveBurst_changes hcontrol) (Moves.raise _)
  · refine Moves.bind ((onReplay_keepsOutbound _).changes) fun found => ?_
    cases found with
    | none => exact receiveBurst_changes hcontrol
    | some replay =>
      refine Moves.bind (Moves.modify fun _ => Changes.of_keeps rfl) fun _ => ?_
      exact Moves.bind acknowledgeRequest_changes fun _ => Moves.pure _

theorem receiveControl_quiet (control : BurstControl) :
    (receiveControl setup peer control).Moves (Quiet setup) := by
  intro s
  rcases receiveControl_yields control s with ⟨h, -⟩ | ⟨tx, indices, -, hactive, -, -, hs'⟩
  · exact h.quiet
  · rw [Quiet, hs']
    exact Silent.single (.adjust s.outbound hactive rfl rfl)

/-- `receive` sends nothing by itself. -/
theorem receive_quiet (body : Str) : (receive setup peer body now).Moves (Quiet setup) := by
  cases hcontrol : parseBurstControl body with
  | none => exact (receive_changes hcontrol).mono fun _ _ h => h.quiet
  | some control =>
    rw [receive]
    split
    · refine Moves.ite ?_ (Moves.raise _)
      rw [receiveBurst]
      split
      · exact Moves.ite (Moves.pure _) (Moves.raise _)
      · simp only [hcontrol]
        exact receiveControl_quiet _
    · next hparse =>
      have hfragment := (parsePacket_eq_ok hparse).2.2
      cases (parseBurstControl_of_fragment hfragment).symm.trans hcontrol

/-- The packet of the call is a control. -/
def Call.isControl : Call → Bool
  | .receive _ body _ => (parseBurstControl body).isSome
  | _ => false

/-- A call that is neither a `poll` nor a control drops active transactions at most. -/
theorem step_changes (s : APRSAdapter) {call : Call} (hpoll : ∀ now, call ≠ .poll now)
    (hcontrol : call.isControl = false) : Changes setup s (step setup s call) := by
  have hchanges : (call.method setup).Moves (Changes setup) := by
    cases call with
    | receive peer body now =>
      have hnone := Option.not_isSome_iff_eq_none.mp (Bool.eq_false_iff.mp hcontrol)
      exact Moves.bind (receive_changes hnone) fun _ => Moves.pure _
    | poll now => exact absurd rfl (hpoll now)
    | queueFrame peer frame options =>
      exact Moves.bind (queueFrame_changes _ _) fun _ => Moves.pure _
    | deliverMessage message endpoint =>
      exact Moves.bind (deliverMessage_changes _ _) fun _ => Moves.pure _
    | connectionLost => exact Moves.bind connectionLost_changes fun _ => Moves.pure _
    | core change =>
      exact Moves.bind (Moves.modify fun _ => Changes.of_keeps rfl) fun _ => Moves.pure _
  exact hchanges s

/-- No call but `poll` sends anything by itself. -/
theorem step_quiet (s : APRSAdapter) {call : Call} (h : ∀ now, call ≠ .poll now) :
    Quiet setup s (step setup s call) := by
  cases hcontrol : call.isControl with
  | false => exact (step_changes s h hcontrol).quiet
  | true =>
    cases call with
    | receive peer body now => exact Moves.bind (receive_quiet body) (fun _ => Moves.pure _) s
    | _ => cases hcontrol

end Changes

end OpenQSP
