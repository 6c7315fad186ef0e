import OpenQSP.Aprs.Adapter

/-!
# Outbound transactions

A response or a proactive message leaves as one transaction: all its packets at once, repeated or
selectively repaired until the peer acknowledges the transaction. A peer has one active
transaction at a time; the others wait in the queue.

Control bodies are compact: `A2` acknowledges a transaction, `N2` names the fragments that are
missing, and `S2` reports that a `SEND_MESSAGE` was stored.

## Main definitions

* `encodeBurstAck`, `encodeStored`, `encodeMissing`, `parseBurstControl`
* `queueFrame`, `supersedeStaleBatches`, `completeOutbound`, `failOutbound`
* `compactStoredResult`
* `deliverMessage`, `connectionLost`
-/

namespace OpenQSP

open APRSAdapter

/-! ### Controls -/

/-- The body of a control with one transaction and a payload. -/
def encodeControl (kind : String) (transactionId : Str) (payload : Bytes) : Py Str := do
  return str kind ++ base91Encode ((← transactionByte transactionId) :: payload)

def encodeBurstAck (transactionId : Str) : Py Str := encodeControl "A2" transactionId []

/-- The durable completion of a `SEND_MESSAGE`. -/
def encodeStored (transactionId : Str) : Py Str := encodeControl "S2" transactionId []

/-- A 16-bit map of the missing fragments. -/
def encodeMissing (transactionId : Str) (missing : Finset ℕ) : Py Str := do
  raiseIf (∃ index ∈ missing, ¬index < 16)
    (.carriage "missing fragment index is outside profile bounds")
  let mask := (sorted missing).foldl (fun mask index => mask ||| 1 <<< index) 0
  raiseIf (mask = 0) (.carriage "missing-fragment mask must not be empty")
  encodeControl "N2" transactionId (toBigEndian 2 mask)

/-- A control that names an outbound transaction. -/
inductive BurstControl
  | ack (transactionId : Str)
  | missing (transactionId : Str) (indices : Finset ℕ)
  deriving DecidableEq

/-- `frozenset(index for index in range(16) if mask & (1 << index))` -/
def maskIndices (mask : ℕ) : Finset ℕ := (Finset.range 16).filter fun index => mask.testBit index

/-- A control that asks for at least one fragment. -/
def missingControl (transactionId : Str) (mask : ℕ) : Option BurstControl :=
  if mask = 0 then none else some (.missing transactionId (maskIndices mask))

/-- The name of the transaction that a byte stands for; it always fits. -/
def transactionName (byte : UInt8) : Str := base36Digits 3 byte.toNat

/-- `Q1A:([0-9A-Z]{3})`, matched completely. -/
def matchLegacyAck (body : Str) : Option BurstControl :=
  let transactionId := body.drop 4
  if body.take 4 = str "Q1A:" ∧ transactionId.length = 3 ∧ transactionId.all PyChar.isBase36 then
    some (.ack transactionId)
  else none

/-- `Q1N:([0-9A-Z]{3}):([0-9A-F]{4})`, matched completely. -/
def matchLegacyNack (body : Str) : Option BurstControl :=
  let transactionId := (body.drop 4).take 3
  let mask := body.drop 8
  if body.take 4 = str "Q1N:" ∧ transactionId.length = 3 ∧ transactionId.all PyChar.isBase36 ∧
      (body.drop 7).take 1 = str ":" ∧ mask.length = 4 ∧
      mask.all (fun c => c.isDigit || (65 ≤ c.code && c.code ≤ 70)) then
    missingControl transactionId (mask.foldl (fun value c => value * 16 + base36Value c) 0)
  else none

def parseBurstControl (body : Str) : Option BurstControl :=
  if body.take 2 = str "A2" then
    match base91Decode (body.drop 2) with
    | .ok [transaction] => some (.ack (transactionName transaction))
    | _ => none
  else if body.take 2 = str "N2" then
    match base91Decode (body.drop 2) with
    | .ok [transaction, high, low] =>
      missingControl (transactionName transaction) (fromBigEndian [high, low])
    | _ => none
  else
    match matchLegacyAck body with
    | some control => some control
    | none => matchLegacyNack body

/-! ### Transactions of the queue -/

namespace BurstTx

/-- What a transaction that is in flight owes to its peer. -/
inductive Due
  | nothing
  | send (indices : List ℕ)
  | exhausted

/-- Requested fragments are due at once, the others when the deadline has passed. -/
def due (tx : BurstTx) (now : ℚ) : Due :=
  match tx.requested with
  | some requested => .send (sorted requested)
  | none =>
    if tx.deadline ≠ 0 ∧ tx.deadline ≤ now then
      if tx.repairActive then
        match tx.repairIndices with
        | some indices => if indices = ∅ then .exhausted else .send (sorted indices)
        | none => .exhausted
      else .send (List.range tx.fragments.length)
    else .nothing

/-- The fragments that are due. -/
def Due.indices : Due → List ℕ
  | send indices => indices
  | _ => []

theorem due_indices_lt {tx : BurstTx} {now : ℚ} :
    ∀ i ∈ (tx.due now).indices, i < tx.fragments.length := by
  intro i hi
  rw [due] at hi
  split at hi
  · next s hs => exact tx.requested_lt s hs i (mem_sorted.mp hi)
  · split at hi
    · split at hi
      · split at hi
        · next s hs =>
          split at hi
          · exact absurd hi List.not_mem_nil
          · exact tx.repairIndices_lt s hs i (mem_sorted.mp hi)
        · exact absurd hi List.not_mem_nil
      · exact List.mem_range.mp hi
    · exact absurd hi List.not_mem_nil

/-- The packets of some fragments; `requested_lt` keeps the indexes in range. -/
def packetsAt (tx : BurstTx) (indices : List ℕ) : List OutboundPacket :=
  indices.filterMap fun index => tx.packets[index]?

/-- The transaction after its due packets were sent once more. -/
def retried (tx : BurstTx) (deadline : ℚ) : BurstTx :=
  { tx with
    requested := none
    requested_lt := by simp
    attempts := tx.attempts + 1
    deadline := deadline }

/-- What is due at `now` must wait, and stays requested. -/
def deferred (tx : BurstTx) (now : ℚ) : BurstTx :=
  { tx with
    requested := some (tx.due now).indices.toFinset
    requested_lt := by
      intro s hs i hi
      obtain rfl := Option.some.inj hs
      exact due_indices_lt i (List.mem_toFinset.mp hi) }

/-- The transaction after all its packets were sent for the first time. -/
def started (tx : BurstTx) (deadline : ℚ) : BurstTx :=
  { tx with
    attempts := 1
    deadline := deadline }

/-- The requested fragments that the transaction has. -/
def validMissing (tx : BurstTx) (missing : Finset ℕ) : Finset ℕ :=
  missing.filter fun index => index < tx.fragments.length

/-- The peer asked for fragments. -/
def repaired (tx : BurstTx) (missing : Finset ℕ) : BurstTx :=
  { tx with
    requested := some (tx.validMissing missing)
    requested_lt := by
      intro s hs i hi
      obtain rfl := Option.some.inj hs
      exact (Finset.mem_filter.mp hi).2
    repairActive := true
    repairIndices := some (tx.validMissing missing)
    repairIndices_lt := by
      intro s hs i hi
      obtain rfl := Option.some.inj hs
      exact (Finset.mem_filter.mp hi).2 }

end BurstTx

namespace APRSAdapter

def queuedCount (s : APRSAdapter) : ℕ := (s.burstQueue.map fun tx => tx.fragments.length).sum

def pendingCount (s : APRSAdapter) : ℕ :=
  (s.burstActive.values.map fun tx => tx.fragments.length).sum

/-- `_active_transactions`: the transaction ids in use towards a peer. -/
def activeTransactions (peer : Str) (s : APRSAdapter) : List Str :=
  activeTransactionIds peer s ++
    (s.burstQueue.filter fun tx => tx.peer = peer).map (fun tx => tx.transactionId) ++
    ((s.burstActive.get? peer).map fun tx => tx.transactionId).toList

/-- Drop the queued transactions of the batches that satisfy `p`, and the active one of `peer` if
its batch does. -/
def dropBatches (peer : Str) (p : BurstTx → Bool) (s : APRSAdapter) : APRSAdapter :=
  { s with
    burstQueue := s.burstQueue.filter fun tx => !p tx
    burstActive := s.burstActive.filter fun e => !(e.1 = peer && p e.2) }

end APRSAdapter

/-- The loop of `_allocate`: the first identifier from `next` on that is not in use, and the next
counter. -/
def allocateFrom (active : List Str) : ℕ → ℕ → Option Str × ℕ
  | 0, next => (none, next)
  | tries + 1, next =>
    let value := next % 256
    let candidate := base36Digits 3 value
    if candidate ∉ active then (some candidate, value + 1)
    else allocateFrom active tries (value + 1)

/-- `_allocate` of a transaction id. -/
def allocate (peer : Str) : Adapter Str := do
  let s ← get
  let next := (s.nextTransaction.get? peer).getD 0
  let (candidate, next) := allocateFrom (s.activeTransactions peer) 256 next
  modify fun s => { s with nextTransaction := s.nextTransaction.set peer next }
  match candidate with
  | some candidate => return candidate
  | none => Method.raise ⟨.overflowError, "peer Q2 transaction ID space exhausted"⟩

/-- A proactive message takes the place of the response batch that is being sent, if that may be
superseded. -/
def supersedeForProactive (peer : Str) (s : APRSAdapter) : APRSAdapter :=
  match s.burstActive.get? peer with
  | none => s
  | some active =>
    if active.responseBatch = none ∨ active.responseSupersedable = false then s
    else
      { s with
        burstActive := s.burstActive.erase peer
        burstQueue := s.burstQueue.filter fun tx =>
          ¬(tx.peer = peer ∧ tx.responseBatch = active.responseBatch) }

/-- The packets of the fragments of a transaction. -/
def packetsOf (setup : Setup) (peer : Str) :
    (fragments : List APRSFragment) → Py { l : List OutboundPacket // l.length = fragments.length }
  | [] => .ok ⟨[], rfl⟩
  | fragment :: fragments => do
    let body ← fragment.body
    let packets ← packetsOf setup peer fragments
    return ⟨⟨setup.serviceCallsign, peer, body, false⟩ :: packets.1, congrArg (· + 1) packets.2⟩

/-- The optional arguments of `queue_frame`. -/
structure QueueOptions where
  proactive : Bool := false
  delivery : Option Delivery := none
  responseBatch : Option TransactionKey := none
  responseSupersedable : Bool := true

/-- `queue_frame`: queue one frame as a new transaction and return its id. -/
def queueFrame (setup : Setup) (peer : Str) (frame : Bytes) (options : QueueOptions) :
    Adapter Str := do
  let _ ← Method.ofExcept (validatePeer peer)
  Method.when options.proactive (modify (supersedeForProactive peer))
  let transactionId ← allocate peer
  let fragments ← Method.ofExcept (fragmentFrameV2 frame transactionId)
  let s ← get
  Method.ofExcept (raiseIf
    (setup.config.queueCapacity < s.queuedCount + s.pendingCount + fragments.length)
    ⟨.overflowError, "bounded APRS outbound queue is full"⟩)
  let packets ← Method.ofExcept (packetsOf setup peer fragments)
  let tx : BurstTx :=
    { peer, transactionId, frame, fragments
      packets := packets.1
      length_packets := packets.2
      priority := if options.proactive then 1 else 0
      order := s.burstOrder
      delivery := options.delivery
      responseBatch := options.responseBatch
      responseSupersedable := options.responseSupersedable }
  modify fun s => { s with
    burstQueue := s.burstQueue ++ [tx]
    burstOrder := s.burstOrder + 1 }
  return transactionId

/-- `_supersede_stale_response_batches`: a new request of a peer replaces the batches that answer
its older requests. -/
def supersedeStaleBatches (peer : Str) (current : TransactionKey) (s : APRSAdapter) :
    APRSAdapter :=
  let s := supersedeBase peer current s
  let stale :=
    (s.burstQueue.filter fun tx => tx.peer = peer).filterMap
      (fun tx => staleBatch current tx.responseBatch tx.responseSupersedable) ++
    (s.burstActive.get? peer).toList.filterMap
      (fun tx => staleBatch current tx.responseBatch tx.responseSupersedable)
  s.dropBatches peer fun tx => tx.responseBatch.any (· ∈ stale)

/-- `_confirm_inbound`: only a rejection is sent. -/
def confirmInbound (setup : Setup) (peer : Str) (messageId : Option Str) (accepted : Bool) :
    Adapter Unit :=
  if accepted then pure () else confirmInboundBase setup peer messageId false

/-- Mark the delivery that a transaction makes, if it makes one. -/
def markDelivery (mark : Delivery → Method PyError CoreState Unit) (delivery : Option Delivery) :
    Adapter Unit :=
  match delivery with
  | none => pure ()
  | some delivery => onCore (mark delivery)

/-- Report a delivery to Core as delivered or as failed, if there is one. The call is noted in
`reports`. -/
def reportDelivery (setup : Setup) (order : Option ℕ) (delivered : Bool)
    (delivery : Option Delivery) : Adapter Unit :=
  match delivery with
  | none => pure ()
  | some delivery => do
    modify fun s => { s with reports := s.reports ++ [⟨order, delivery, delivered⟩] }
    onCore (if delivered then CoreState.markAprsDelivered setup.stores delivery
      else CoreState.markAprsFailed setup.stores delivery)

/-- The active transaction of a peer ends, and is noted in `endings`. -/
def APRSAdapter.endActive (peer : Str) (tx : BurstTx) (acknowledged : Bool) (s : APRSAdapter) :
    APRSAdapter :=
  { s with
    burstActive := s.burstActive.erase peer
    endings := s.endings ++ [⟨tx.order, tx.delivery, acknowledged⟩] }

/-- `_complete_outbound`, for the active transaction of a peer. -/
def completeOutbound (setup : Setup) (peer : Str) (tx : BurstTx) : Adapter Unit := do
  modify (endActive peer tx true)
  reportDelivery setup (some tx.order) true tx.delivery

/-- `_fail_outbound`, for the active transaction of a peer. -/
def failOutbound (setup : Setup) (peer : Str) (tx : BurstTx) : Adapter Unit := do
  modify (endActive peer tx false)
  reportDelivery setup (some tx.order) false tx.delivery
  modify fun s => { s with
    failedPackets := lastN setup.config.eventHistoryCapacity (s.failedPackets ++ tx.packets) }

/-- `_refresh_aprs_presence` -/
def refreshAprsPresence (setup : Setup) (peer : Str) : Adapter Unit :=
  if setup.router then do
    let callsign ← Method.ofExcept (normalizeCallsign peer "APRS source")
    onCore (CoreState.setAprs callsign peer)
  else pure ()

/-- The responses are one `STORED`. -/
def sendWasStored (responses : List Bytes) : Py Bool :=
  match responses with
  | [response] => do return (← decodeFrame response) = .stored
  | _ => pure false

/-- Is this the completed request of a `SEND_MESSAGE` that was stored? -/
def Replay.isStoredSend (replay : Replay) : Py Bool := do
  if (← decodeFrame replay.request).isSendMessage then sendWasStored replay.responses
  else return false

/-- `_compact_stored_result`: answer a stored `SEND_MESSAGE` with `S2` instead of its response
frame. -/
def compactStoredResult (setup : Setup) (key : TransactionKey) (now : ℚ) : Adapter Unit := do
  match ← onReplay (ReplayCache.get setup.config.replay key now) with
  | none => pure ()
  | some replay => do
    let stored ← Method.ofExcept replay.isStoredSend
    Method.when stored do
      modify (dropBatches key.1 fun tx => tx.responseBatch = some key)
      let body ← Method.ofExcept (encodeStored key.2)
      sendImmediately ⟨setup.serviceCallsign, key.1, body, false⟩

/-! ### Proactive messages and connection loss -/

/-- `deliver_message`: queue a routed message for an APRS endpoint. -/
def deliverMessage (setup : Setup) (message : Message) (endpoint : Str) : Adapter Unit := do
  let frame ← Method.ofExcept (encodeFrame (.message message) true)
  let delivery := (message.recipient, message.sequence)
  let _ ← queueFrame setup endpoint frame { proactive := true, delivery := some delivery }
  onCore (CoreState.markAprsPending setup.stores delivery)

/-- The router as a message listener of the core. What a listener raises is logged and dropped. -/
def routeMessage (setup : Setup) (message : Message) : Adapter Unit :=
  if setup.router then
    Method.catchError
      (do
        let s ← get
        match ← Method.ofExcept (s.core.aprsEndpoint message.recipient) with
        | some endpoint => deliverMessage setup message endpoint
        | none => pure ())
      fun _ => pure ()
  else pure ()

/-- `connection_lost` -/
def connectionLost (setup : Setup) : Adapter Unit := do
  let s ← get
  let abandoned := (s.queue.filterMap (·.delivery) ++ s.pending.values.filterMap (·.delivery)).dedup
  modify fun s => { s with
    queue := []
    pending := .empty
    immediate := [] }
  abandoned.forM fun delivery => reportDelivery setup none false (some delivery)

end OpenQSP
