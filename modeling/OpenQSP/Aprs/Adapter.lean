import Mathlib.Data.Finset.Lattice.Fold
import Mathlib.Data.List.MinMax
import Mathlib.Order.Lattice.Nat
import OpenQSP.Aprs.State
import OpenQSP.Server.Presence

/-!
# The adapter

Configuration and state of the APRS adapter, and the methods of its base class that the
production adapter still runs.

The production adapter is the last of four classes that extend each other. All their state is in
one record. The base class has an outbound queue and a table of unacknowledged packets of its own;
the production adapter queues elsewhere, so nothing puts anything into these two, but the methods
it inherits still read them.

Every call of `ServerCore.handle_frame` is noted in `executions`, every outbound transaction that is
completed or given up in `endings`, and every call that marks a delivery as delivered or as failed
in `reports`; no code reads them.

## Main definitions

* `AdapterConfig`, `Setup` — what is fixed when the adapter is constructed
* `BurstTx`, `RxProgress`, `Ending`, `Report`, `APRSAdapter` — its state
* `validatePeer`, `activeTransactionIds`, `dropBatches`, `confirmInboundBase`, `activateAprs`
-/

namespace OpenQSP

structure AdapterConfig where
  ackTimeout : ℚ := 15
  maxAttempts : ℕ := 5
  minInterval : ℚ := 2
  activityTimeout : ℚ := 600
  reassemblyTtl : ℚ := 120
  replayTtl : ℚ := 600
  maxReassemblies : ℕ := 128
  maxReplays : ℕ := 256
  maxReplaysPerPeer : ℕ := 16
  queueCapacity : ℕ := 512
  maxActivityPeers : ℕ := 256
  eventHistoryCapacity : ℕ := 512
  ackTimeout_pos : 0 < ackTimeout := by decide
  maxAttempts_pos : 0 < maxAttempts := by decide
  minInterval_nonneg : 0 ≤ minInterval := by decide
  activityTimeout_pos : 0 < activityTimeout := by decide
  reassemblyTtl_pos : 0 < reassemblyTtl := by decide
  replayTtl_pos : 0 < replayTtl := by decide
  maxReassemblies_pos : 0 < maxReassemblies := by decide
  maxReplays_pos : 0 < maxReplays := by decide
  maxReplaysPerPeer_pos : 0 < maxReplaysPerPeer := by decide
  queueCapacity_pos : 0 < queueCapacity := by decide
  maxActivityPeers_pos : 0 < maxActivityPeers := by decide
  eventHistoryCapacity_pos : 0 < eventHistoryCapacity := by decide

def AdapterConfig.standard : AdapterConfig := {}

def AdapterConfig.reassembly (config : AdapterConfig) : ReassemblyBounds :=
  ⟨config.reassemblyTtl, config.maxReassemblies, config.reassemblyTtl_pos,
    config.maxReassemblies_pos⟩

def AdapterConfig.replay (config : AdapterConfig) : ReplayBounds :=
  ⟨config.replayTtl, config.maxReplays, config.maxReplaysPerPeer, config.replayTtl_pos,
    config.maxReplays_pos, config.maxReplaysPerPeer_pos⟩

/-- What the constructor fixes. -/
structure Setup where
  config : AdapterConfig := {}
  serviceCallsign : Str := str "OPENQSP"
  repairGrace : ℚ := 5
  finalFragmentGrace : ℚ := 2
  repairGrace_pos : 0 < repairGrace := by decide
  finalFragmentGrace_pos : 0 < finalFragmentGrace := by decide
  /-- A delivery router was given, and it listens to the core. -/
  router : Bool
  stores : Stores

/-- A station with the default configuration. -/
def Setup.standard (router : Bool) (stores : Stores) : Setup :=
  { config := .standard, router, stores }

structure OutboundPacket where
  source : Str
  destination : Str
  body : Str
  isAck : Bool := false
  deriving DecidableEq

/-- The mailbox and sequence of the message that a transmission delivers. -/
abbrev Delivery := Str × ℤ

/-! ### The state -/

/-- An entry of the base class's queue, without the fields only its own `poll` reads. -/
structure Queued where
  peer : Str
  fragment : APRSFragment
  delivery : Option Delivery
  responseBatch : Option TransactionKey
  responseSupersedable : Bool

/-- An unacknowledged packet of the base class, without the fields only its own `poll` reads. -/
structure Pending where
  packet : OutboundPacket
  transactionId : Str
  delivery : Option Delivery
  responseBatch : Option TransactionKey
  responseSupersedable : Bool

/-- `tuple(sorted(indices))` -/
def sorted (indices : Finset ℕ) : List ℕ :=
  (List.range (indices.sup id + 1)).filter (· ∈ indices)

@[simp] theorem mem_sorted {indices : Finset ℕ} {i : ℕ} : i ∈ sorted indices ↔ i ∈ indices := by
  rw [sorted, List.mem_filter, List.mem_range, decide_eq_true_eq, and_iff_right_iff_imp]
  exact fun h => Nat.lt_succ_of_le (Finset.le_sup (f := id) h)

/-- An outbound transaction: one frame in flight to one peer, as the packets of its fragments. -/
structure BurstTx where
  peer : Str
  transactionId : Str
  /-- The frame that was queued. No code reads it. -/
  frame : Bytes
  fragments : List APRSFragment
  packets : List OutboundPacket
  priority : ℕ
  order : ℕ
  delivery : Option Delivery
  responseBatch : Option TransactionKey
  responseSupersedable : Bool
  attempts : ℕ := 0
  deadline : ℚ := 0
  requested : Option (Finset ℕ) := none
  repairActive : Bool := false
  repairIndices : Option (Finset ℕ) := none
  /-- There is one packet for each fragment. -/
  length_packets : packets.length = fragments.length
  /-- What is requested exists. -/
  requested_lt : ∀ s ∈ requested, ∀ i ∈ s, i < fragments.length := by simp
  repairIndices_lt : ∀ s ∈ repairIndices, ∀ i ∈ s, i < fragments.length := by simp
  deriving DecidableEq

/-- An inbound transaction of which the adapter has seen a fragment. -/
structure RxProgress where
  total : ℕ
  received : Finset ℕ := ∅
  deadline : ℚ := 0
  sawFinal : Bool := false
  deriving DecidableEq

/-- The indexes that have not been received. -/
def RxProgress.missing (progress : RxProgress) : Finset ℕ :=
  Finset.range progress.total \ progress.received

/-- One call of `ServerCore.handle_frame`. -/
structure Execution where
  key : TransactionKey
  callsign : Str
  frame : Bytes
  outcome : Py (List Bytes)
  /-- The database before and after. -/
  before : Tables
  after : Tables

/-- The end of an outbound transaction: its peer acknowledged it, or it was given up. -/
structure Ending where
  order : ℕ
  delivery : Option Delivery
  acknowledged : Bool
  deriving DecidableEq

/-- One call of `ServerCore.mark_aprs_delivered` or `mark_aprs_failed`. -/
structure Report where
  /-- The transaction that ends; a packet of the base class is of none. -/
  order : Option ℕ
  delivery : Delivery
  delivered : Bool
  deriving DecidableEq

structure APRSAdapter where
  core : CoreState
  reassembly : Reassembler := .empty
  replay : ReplayCache := .empty
  queue : List Queued := []
  pending : OrderedDict (Str × Str) Pending := .empty
  immediate : List OutboundPacket := []
  nextTransaction : OrderedDict Str ℕ := .empty
  activity : OrderedDict Str (Str × ℚ) := .empty
  /-- When a packet was last sent to a peer; minus infinity where it is absent. -/
  lastSend : OrderedDict Str ℚ := .empty
  completedTransactions : List TransactionKey := []
  failedPackets : List OutboundPacket := []
  burstQueue : List BurstTx := []
  burstActive : OrderedDict Str BurstTx := .empty
  rxProgress : OrderedDict TransactionKey RxProgress := .empty
  burstOrder : ℕ := 0
  /-- The calls of `ServerCore.handle_frame` so far. No code reads it. -/
  executions : List Execution := []
  /-- The transactions that were completed or failed so far. No code reads it. -/
  endings : List Ending := []
  /-- The calls of `mark_aprs_delivered` and `mark_aprs_failed` so far. No code reads it. -/
  reports : List Report := []

/-- A method of the adapter. -/
abbrev Adapter (α : Type) := Method PyError APRSAdapter α

namespace APRSAdapter

/-- Run a method of the core. -/
def onCore {α : Type} (m : Method PyError CoreState α) : Adapter α :=
  ⟨fun s => ((m.run s.core).1, { s with core := (m.run s.core).2 })⟩

/-- Run an operation of the reassembler. -/
def onReassembly {α : Type} (f : Reassembler → α × Reassembler) : Adapter α :=
  ⟨fun s => (.ok (f s.reassembly).1, { s with reassembly := (f s.reassembly).2 })⟩

/-- Run an operation of the replay cache. -/
def onReplay {α : Type} (f : ReplayCache → α × ReplayCache) : Adapter α :=
  ⟨fun s => (.ok (f s.replay).1, { s with replay := (f s.replay).2 })⟩

/-- `packets.append` for the packets that the next `poll` returns first. -/
def sendImmediately (packet : OutboundPacket) : Adapter Unit :=
  modify fun s => { s with immediate := s.immediate ++ [packet] }

end APRSAdapter

/-! ### Methods of the base class -/

open APRSAdapter

/-- `[A-Z0-9]{3,12}(?:-[0-9]{1,2})?`, with an SSID of at most 15. -/
def validatePeer (peer : Str) : Py Str := do
  let base := peer.takeWhile fun c => c.code ≠ 45
  let ssid := peer.drop base.length
  raiseIf (¬(3 ≤ base.length ∧ base.length ≤ 12 ∧ base.all PyChar.isBase36 ∧
      (ssid = [] ∨ (2 ≤ ssid.length ∧ ssid.length ≤ 3 ∧ (ssid.drop 1).all PyChar.isDigit))))
    (.carriage "invalid APRS source address")
  raiseIf (15 < (ssid.drop 1).foldl (fun value c => value * 10 + (c.code - 48)) 0)
    (.carriage "APRS SSID must be between 0 and 15")
  return peer

/-- `_active_transactions` of the base class: the transaction ids in its two tables. -/
def activeTransactionIds (peer : Str) (s : APRSAdapter) : List Str :=
  (s.queue.filter fun item => item.peer = peer).map (fun item => item.fragment.transactionId) ++
  (s.pending.entries.filter fun e => e.1.1 = peer).filterMap fun e =>
    match parseFragment e.2.packet.body with
    | .ok fragment => some fragment.transactionId
    | .error _ => none

/-- The response batches other than `current` that a new request of `peer` replaces. -/
def staleBatch (current : TransactionKey) (batch : Option TransactionKey) (supersedable : Bool) :
    Option TransactionKey :=
  if batch ≠ some current ∧ supersedable then batch else none

/-- `_supersede_stale_response_batches` of the base class. -/
def supersedeBase (peer : Str) (current : TransactionKey) (s : APRSAdapter) : APRSAdapter :=
  let stale :=
    (s.queue.filter fun item => item.peer = peer).filterMap
      (fun item => staleBatch current item.responseBatch item.responseSupersedable) ++
    (s.pending.entries.filter fun e => e.1.1 = peer).filterMap
      (fun e => staleBatch current e.2.responseBatch e.2.responseSupersedable)
  { s with
    queue := s.queue.filter fun item => ¬item.responseBatch.any (· ∈ stale)
    pending := s.pending.filter fun e => ¬(e.1.1 = peer ∧ e.2.responseBatch.any (· ∈ stale)) }

/-- `_confirm_inbound` of the base class. -/
def confirmInboundBase (setup : Setup) (peer : Str) (messageId : Option Str) (accepted : Bool) :
    Adapter Unit :=
  match messageId with
  | none => pure ()
  | some messageId => sendImmediately
      ⟨setup.serviceCallsign, peer, str (if accepted then "ack" else "rej") ++ messageId, accepted⟩

/-- Does any of the responses decode to an `ERROR`? -/
def anyError : List Bytes → Py Bool
  | [] => pure false
  | response :: responses => do
    if (← decodeFrame response).isError then return true else anyError responses

/-- `_activate_aprs_if_accepted`: a request that Core accepts selects APRS as the transport of its
sender. -/
def activateAprs (setup : Setup) (peer : Str) (responses : List Bytes) : Adapter Unit :=
  if setup.router = false ∨ responses = [] then pure ()
  else do
    if ← Method.ofExcept (anyError responses) then pure ()
    else do
      let callsign ← Method.ofExcept (normalizeCallsign peer "APRS source")
      onCore (CoreState.setAprs callsign peer)

/-- `_expire_activity` -/
def expireActivity (setup : Setup) (now : ℚ) (s : APRSAdapter) : APRSAdapter :=
  { s with
    activity := s.activity.filter fun e => ¬setup.config.activityTimeout ≤ now - e.2.2 }

/-- The last `n` elements of a history. -/
def lastN {α : Type} (n : ℕ) (l : List α) : List α := l.drop (l.length - n)

/-- A request of `peer` completed: note its activity, and the transaction in the history. -/
def noteCompleted (setup : Setup) (key : TransactionKey) (callsign : Str) (now : ℚ)
    (s : APRSAdapter) : APRSAdapter :=
  let s := expireActivity setup now s
  let activity :=
    if key.1 ∉ s.activity.keys ∧ setup.config.maxActivityPeers ≤ s.activity.size then
      match s.activity.entries.argmin fun e => e.2.2 with
      | some oldest => s.activity.erase oldest.1
      | none => s.activity
    else s.activity
  { s with
    activity := activity.set key.1 (callsign, now)
    completedTransactions :=
      lastN setup.config.eventHistoryCapacity (s.completedTransactions ++ [key]) }

end OpenQSP
