import OpenQSP.Aprs.Burst
import OpenQSP.Lib.Heapq

/-!
# The exported adapter

`transport.aprs.APRSAdapter`, which acknowledges every packet of a frame by itself. It is the class
that the production adapter extends, run with its own methods: a frame is queued as one entry for
each of its Q1 fragments, each under an APRS message id, and a peer has at most one unacknowledged
packet at a time.

What the source puts through a set is handled in any one order.

## Main definitions

* `CommitConfig`, `CommitSetup` — what is fixed when the adapter is constructed
* `QueuedFragment`, `PendingFragment`, `CommitAPRSAdapter` — its state
* `queueFrame`, `supersedeStaleBatches`, `failTransaction`, `deliverMessage`, `connectionLost`
-/

namespace OpenQSP

structure CommitConfig extends AdapterConfig where
  transactionIdSpace : ℕ := 36 ^ 3
  transactionIdSpace_pos : 1 ≤ transactionIdSpace := by decide
  transactionIdSpace_le : transactionIdSpace ≤ 36 ^ 3 := by decide

/-- What the constructor fixes. -/
structure CommitSetup where
  config : CommitConfig := {}
  serviceCallsign : Str := str "OPENQSP"
  /-- A delivery router was given, and it listens to the core. -/
  router : Bool
  stores : Stores

/-- A station with the default configuration. -/
def CommitSetup.standard (router : Bool) (stores : Stores) : CommitSetup :=
  { config := { AdapterConfig.standard with }, router, stores }

/-- A fragment in the queue. -/
structure QueuedFragment where
  priority : ℕ
  order : ℕ
  peer : Str
  fragment : APRSFragment
  delivery : Option Delivery
  responseBatch : Option TransactionKey
  responseSupersedable : Bool
  deriving DecidableEq

/-- The order of the queue. -/
def QueuedFragment.le (item item' : QueuedFragment) : Prop :=
  item.priority < item'.priority ∨ (item.priority = item'.priority ∧ item.order ≤ item'.order)

instance : DecidableRel QueuedFragment.le := fun _ _ => inferInstanceAs (Decidable (_ ∨ _))

instance : Std.Total QueuedFragment.le where
  total item item' := by
    rw [QueuedFragment.le, QueuedFragment.le]
    omega

instance : IsTrans QueuedFragment QueuedFragment.le where
  trans item item' item'' h h' := by
    rw [QueuedFragment.le] at h h' ⊢
    omega

/-- A packet that waits for its acknowledgement, with what is copied from its entry of the queue. -/
structure PendingFragment where
  packet : OutboundPacket
  attempts : ℕ
  deadline : ℚ
  priority : ℕ
  transactionId : Str
  delivery : Option Delivery
  responseBatch : Option TransactionKey
  responseSupersedable : Bool
  /-- The entry of the queue that was sent. No code reads it. -/
  item : QueuedFragment
  copied : (transactionId, delivery, responseBatch) =
    (item.fragment.transactionId, item.delivery, item.responseBatch)

/-- An entry of the queue that was sent for the first time. -/
def QueuedFragment.sent (item : QueuedFragment) (packet : OutboundPacket) (deadline : ℚ) :
    PendingFragment where
  packet := packet
  attempts := 1
  deadline := deadline
  priority := item.priority
  transactionId := item.fragment.transactionId
  delivery := item.delivery
  responseBatch := item.responseBatch
  responseSupersedable := item.responseSupersedable
  item := item
  copied := rfl

/-- A packet that was sent once more. -/
def PendingFragment.retried (pending : PendingFragment) (deadline : ℚ) : PendingFragment :=
  { pending with
    attempts := pending.attempts + 1
    deadline := deadline }

structure CommitAPRSAdapter where
  core : CoreState
  reassembly : Reassembler := .empty
  replay : ReplayCache := .empty
  /-- A heap. -/
  queue : List QueuedFragment := []
  pending : OrderedDict (Str × Str) PendingFragment := .empty
  immediate : List OutboundPacket := []
  nextTransaction : OrderedDict Str ℕ := .empty
  nextMessage : OrderedDict Str ℕ := .empty
  activity : OrderedDict Str (Str × ℚ) := .empty
  /-- When a packet was last sent to a peer; minus infinity where it is absent. -/
  lastSend : OrderedDict Str ℚ := .empty
  order : ℕ := 0
  completedTransactions : List TransactionKey := []
  failedPackets : List OutboundPacket := []
  /-- The fragments that were acknowledged so far. No code reads it. -/
  acked : List QueuedFragment := []
  /-- The calls of `mark_aprs_*` so far. No code reads it. -/
  marks : List (Delivery × DeliveryStatus) := []
  /-- The calls of `ServerCore.handle_frame` so far. No code reads it. -/
  executions : List Execution := []

/-- A method of the exported adapter. -/
abbrev CommitAdapter (α : Type) := Method PyError CommitAPRSAdapter α

namespace CommitAPRSAdapter

/-- Run a method of the core. -/
def onCore {α : Type} (m : Method PyError CoreState α) : CommitAdapter α :=
  ⟨fun s => ((m.run s.core).1, { s with core := (m.run s.core).2 })⟩

/-- Run an operation of the reassembler. -/
def onReassembly {α : Type} (f : Reassembler → α × Reassembler) : CommitAdapter α :=
  ⟨fun s => (.ok (f s.reassembly).1, { s with reassembly := (f s.reassembly).2 })⟩

/-- Run an operation of the replay cache. -/
def onReplay {α : Type} (f : ReplayCache → α × ReplayCache) : CommitAdapter α :=
  ⟨fun s => (.ok (f s.replay).1, { s with replay := (f s.replay).2 })⟩

/-- `core.mark_aprs_pending`, `core.mark_aprs_delivered` or `core.mark_aprs_failed`, noted in
`marks`. -/
def mark (setup : CommitSetup) (status : DeliveryStatus) (delivery : Delivery) :
    CommitAdapter Unit := do
  modify fun s => { s with marks := s.marks ++ [(delivery, status)] }
  onCore (match status with
    | .pending => CoreState.markAprsPending setup.stores delivery
    | .delivered => CoreState.markAprsDelivered setup.stores delivery
    | .failed => CoreState.markAprsFailed setup.stores delivery)

/-! ### Identifiers -/

/-- `_active_transactions`: the transaction ids towards a peer that are in use. -/
def activeTransactions (peer : Str) (s : CommitAPRSAdapter) : List Str :=
  (s.queue.filter fun item => item.peer = peer).map (fun item => item.fragment.transactionId) ++
  (s.pending.entries.filter fun e => e.1.1 = peer).filterMap fun e =>
    match parseFragment e.2.packet.body with
    | .ok fragment => some fragment.transactionId
    | .error _ => none

/-- `_active_message_ids`: the message ids towards a peer that are in use. -/
def activeMessageIds (peer : Str) (s : CommitAPRSAdapter) : List Str :=
  (s.queue.filter fun item => item.peer = peer).filterMap (fun item => item.fragment.messageId) ++
  (s.pending.keys.filter fun key => key.1 = peer).map Prod.snd

/-- The loop of `_allocate`: the first identifier from `next` on that is not in use, and the next
counter. -/
def allocateFrom (width space : ℕ) (active : List Str) : ℕ → ℕ → Option Str × ℕ
  | 0, next => (none, next)
  | tries + 1, next =>
    let value := next % space
    let candidate := base36Digits width value
    if candidate ∉ active then (some candidate, value + 1)
    else allocateFrom width space active tries (value + 1)

/-- `_allocate`, of a transaction id or of a message id. -/
def allocate (setup : CommitSetup) (peer : Str) (transaction : Bool) : CommitAdapter Str := do
  let s ← get
  let counters := if transaction then s.nextTransaction else s.nextMessage
  let width := if transaction then 3 else 2
  let space := if transaction then setup.config.transactionIdSpace else 36 ^ 2
  let active := if transaction then s.activeTransactions peer else s.activeMessageIds peer
  let (candidate, next) := allocateFrom width space active space ((counters.get? peer).getD 0)
  modify fun s =>
    if transaction then { s with nextTransaction := s.nextTransaction.set peer next }
    else { s with nextMessage := s.nextMessage.set peer next }
  match candidate with
  | some candidate => return candidate
  | none => Method.raise ⟨.overflowError, "peer APRS identifier space exhausted"⟩

/-! ### The queue -/

/-- The entry of the queue for a fragment under a message id. -/
def queuedAs (fragment : APRSFragment) (options : QueueOptions) (peer : Str) (order : ℕ)
    (messageId : Str) :
    QueuedFragment where
  priority := if options.proactive then 1 else 0
  order := order
  peer := peer
  fragment := ⟨fragment.transactionId, fragment.index, fragment.total, fragment.data,
    some messageId, 1, none⟩
  delivery := options.delivery
  responseBatch := options.responseBatch
  responseSupersedable := options.responseSupersedable

/-- One turn of the loop of `queue_frame`: push a fragment under a new message id. -/
def pushFragment (setup : CommitSetup) (peer : Str) (options : QueueOptions)
    (fragment : APRSFragment) :
    CommitAdapter Unit := do
  let messageId ← allocate setup peer false
  modify fun s => { s with
    queue := Heapq.heappush QueuedFragment.le s.queue
      (queuedAs fragment options peer s.order messageId)
    order := s.order + 1 }

/-- `queue_frame`: queue the fragments of one frame and return its transaction id. -/
def queueFrame (setup : CommitSetup) (peer : Str) (frame : Bytes) (options : QueueOptions) :
    CommitAdapter Str := do
  let _ ← Method.ofExcept (validatePeer peer)
  let transactionId ← allocate setup peer true
  let fragments ← Method.ofExcept (fragmentFrame frame transactionId)
  let s ← get
  Method.ofExcept (raiseIf (setup.config.queueCapacity < s.queue.length + fragments.length)
    ⟨.overflowError, "bounded APRS outbound queue is full"⟩)
  fragments.forM (pushFragment setup peer options)
  return transactionId

/-- The response batches other than `current` that a new request of `peer` replaces. -/
def staleBatches (peer : Str) (current : TransactionKey) (s : CommitAPRSAdapter) :
    List TransactionKey :=
  (s.queue.filter fun item => item.peer = peer).filterMap
    (fun item => staleBatch current item.responseBatch item.responseSupersedable) ++
  (s.pending.entries.filter fun e => e.1.1 = peer).filterMap
    fun e => staleBatch current e.2.responseBatch e.2.responseSupersedable

/-- `_supersede_stale_response_batches` -/
def supersedeStaleBatches (peer : Str) (current : TransactionKey) (s : CommitAPRSAdapter) :
    CommitAPRSAdapter :=
  if s.staleBatches peer current = [] then s
  else { s with
    queue := Heapq.heapify QueuedFragment.le
      (s.queue.filter fun item => ¬item.responseBatch.any (· ∈ s.staleBatches peer current))
    pending := s.pending.filter fun e =>
      ¬(e.1.1 = peer ∧ e.2.responseBatch.any (· ∈ s.staleBatches peer current)) }

/-- `_confirm_inbound` -/
def confirmInbound (setup : CommitSetup) (peer : Str) (messageId : Option Str) (accepted : Bool) :
    CommitAdapter Unit :=
  match messageId with
  | none => pure ()
  | some messageId => modify fun s => { s with
      immediate := s.immediate ++ [⟨setup.serviceCallsign, peer,
        str (if accepted then "ack" else "rej") ++ messageId, accepted⟩] }

/-- `_activate_aprs_if_accepted` -/
def activateAprs (setup : CommitSetup) (peer : Str) (responses : List Bytes) : CommitAdapter Unit :=
  if setup.router = false ∨ responses = [] then pure ()
  else do
    if ← Method.ofExcept (anyError responses) then pure ()
    else do
      let callsign ← Method.ofExcept (normalizeCallsign peer "APRS source")
      onCore (CoreState.setAprs callsign peer)

/-- Does a fragment belong to the transaction that failed, or to its response batch? -/
def isFailed (failed : PendingFragment) (transactionId : Str)
    (batch : Option TransactionKey) : Bool :=
  transactionId = failed.transactionId || (failed.responseBatch.isSome && batch =
    failed.responseBatch)

/-- `_fail_transaction`: abort a frame and the rest of its response batch. -/
def failTransaction (setup : CommitSetup) (peer : Str) (failed : PendingFragment) :
    CommitAdapter Unit := do
  let s ← get
  let queued (item : QueuedFragment) : Bool :=
    item.peer = peer && isFailed failed item.fragment.transactionId item.responseBatch
  let pending (e : (Str × Str) × PendingFragment) : Bool :=
    e.1.1 = peer && isFailed failed e.2.transactionId e.2.responseBatch
  let abandoned := (failed.delivery.toList ++ (s.queue.filter queued).filterMap (·.delivery) ++
    (s.pending.filter pending).values.filterMap (·.delivery)).dedup
  modify fun s => { s with
    queue := Heapq.heapify QueuedFragment.le (s.queue.filter fun item => !queued item)
    pending := s.pending.filter fun e => !pending e }
  abandoned.forM (mark setup .failed)

/-! ### Proactive messages and connection loss -/

/-- `deliver_message`: queue a routed message for an APRS endpoint. -/
def deliverMessage (setup : CommitSetup) (message : Message) (endpoint : Str) :
    CommitAdapter Unit := do
  let frame ← Method.ofExcept (encodeFrame (.message message) true)
  let delivery := (message.recipient, message.sequence)
  let _ ← queueFrame setup endpoint frame { proactive := true, delivery := some delivery }
  mark setup .pending delivery

/-- The router as a message listener of the core. What a listener raises is logged and dropped. -/
def routeMessage (setup : CommitSetup) (message : Message) : CommitAdapter Unit :=
  if setup.router then
    Method.catchError
      (do
        let s ← get
        match ← Method.ofExcept (s.core.aprsEndpoint message.recipient) with
        | some endpoint => deliverMessage setup message endpoint
        | none => pure ())
      fun _ => pure ()
  else pure ()

/-- `connection_lost` -/
def connectionLost (setup : CommitSetup) : CommitAdapter Unit := do
  let s ← get
  let abandoned := (s.queue.filterMap (·.delivery) ++ s.pending.values.filterMap (·.delivery)).dedup
  modify fun s => { s with
    queue := []
    pending := .empty
    immediate := [] }
  abandoned.forM (mark setup .failed)

end CommitAPRSAdapter

end OpenQSP
