import OpenQSP.Aprs.Burst

/-!
# Receiving a packet

What the adapter does with one APRS message body, layer by layer: the guard answers fragments of
requests that completed lately, the burst layer handles controls and keeps track of incomplete
transactions, and the commit layer reassembles requests, has Core execute them and queues the
responses.

A method may raise at several places, and what it changed before stays changed.

## Main definitions

* `receiveCommit` — the layer of `commit_adapter`
* `receiveBurst` — the layer of `selective_burst`
* `receive` — the production adapter
-/

namespace OpenQSP

open APRSAdapter

/-- What `receive` returns. -/
inductive Disposition
  | ignored | acknowledged | repairRequested | fragment | completed | replayed | conflict | invalid
  deriving DecidableEq

/-! ### The commit layer -/

/-- `ack([0-9A-Z]{1,5})`, matched completely. -/
def matchAck (body : Str) : Option Str :=
  let messageId := body.drop 3
  if body.take 3 = str "ack" ∧ 1 ≤ messageId.length ∧ messageId.length ≤ 5 ∧
      messageId.all PyChar.isBase36 then some messageId
  else none

/-- A search for an opening brace, one to five base-36 characters and the end of the text, which
may be before a final line feed. -/
def trailingMessageId (body : Str) : Option Str :=
  let text := if body.getLast?.any (·.code = 10) then body.dropLast else body
  let messageId := (splitLastBrace text).2
  if openBrace ∈ text ∧ 1 ≤ messageId.length ∧ messageId.length ≤ 5 ∧
      messageId.all PyChar.isBase36 then some messageId
  else none

/-- `commit_ack.requested`: the client asks for a durable acknowledgement. -/
def commitAckRequested (messageId : Option Str) : Bool :=
  messageId.any fun id => id.take 1 = str "C"

/-- A legacy acknowledgement, for a packet of the base class. -/
def receiveLegacyAck (setup : Setup) (peer messageId : Str) : Adapter Disposition := do
  let s ← get
  match s.pending.get? (peer, messageId) with
  | none => return .ignored
  | some pending => do
    modify fun s => { s with pending := s.pending.erase (peer, messageId) }
    let s ← get
    let outstanding := s.queue.any (fun item =>
        item.peer = peer && item.fragment.transactionId = pending.transactionId) ||
      s.pending.entries.any fun e => e.1.1 = peer && e.2.transactionId = pending.transactionId
    Method.when (outstanding = false)
      (reportDelivery setup none true pending.delivery)
    return .acknowledged

/-- Is this a delivery to a mailbox up to a cursor? -/
def isCovered (callsign : Str) (since : ℤ) (delivery : Option Delivery) : Bool :=
  delivery.any fun delivery => delivery.1 = callsign && delivery.2 ≤ since

/-- `_reconcile_message_cursor`: a cursor proves that older deliveries were received. -/
def reconcileMessageCursor (setup : Setup) (peer callsign : Str) (since : ℤ) : Adapter Unit := do
  let s ← get
  let covered := s.queue.filter fun item => item.peer =
    peer && isCovered callsign since item.delivery
  let coveredPending := s.pending.filter fun e =>
    e.1.1 = peer && isCovered callsign since e.2.delivery
  let confirmed := (covered.filterMap (·.delivery) ++
    coveredPending.values.filterMap (·.delivery)).dedup
  modify fun s => { s with
    queue := s.queue.filter fun item =>
      ¬(item.peer = peer ∧ isCovered callsign since item.delivery)
    pending := s.pending.filter fun e => ¬(e.1.1 = peer ∧ isCovered callsign since e.2.delivery) }
  confirmed.forM fun delivery => reportDelivery setup none true (some delivery)

/-- Only a `GET_NEW_MESSAGES` carries a cursor of the mailbox. -/
def reconcileRequest (setup : Setup) (peer callsign : Str) : ProtocolObject → Adapter Unit
  | .getNewMessages request => reconcileMessageCursor setup peer callsign request.since
  | _ => pure ()

/-- `_dispatch` with the router as a listener: a message that was stored is routed at once, before
the response to its request exists. -/
def dispatchRouted (setup : Setup) (callsign : Str) (request : ProtocolObject) :
    Adapter (List ProtocolObject) := do
  let s ← get
  let (responses, events) ←
    onCore (CoreState.onTables (dispatch setup.stores s.core.clock callsign request))
  events.forM (routeMessage setup)
  return responses

/-- `ServerCore.handle_frame`, noted in `executions`. -/
def executeFrame (setup : Setup) (key : TransactionKey) (callsign : Str) (frame : Bytes) :
    Adapter (List Bytes) := ⟨fun s =>
  let (outcome, s') := (handleFrame (dispatchRouted setup) callsign frame).run s
  (outcome, { s' with
    executions := s'.executions ++
      [⟨key, callsign, frame, outcome, s.core.tables, s'.core.tables⟩] })⟩

/-- The delivery that a response makes, if it is a message. -/
def deliveryOf (response : Bytes) : Py (Option Delivery) := do
  return match ← decodeFrame response with
    | .message message => some (message.recipient, message.sequence)
    | _ => none

/-- Queue the responses of a request that was just executed. -/
def queueResponses (setup : Setup) (key : TransactionKey) (supersedable : Bool)
    (responses : List Bytes) : Adapter Unit :=
  responses.forM fun response => do
    let delivery ← Method.ofExcept (deliveryOf response)
    let _ ← queueFrame setup key.1 response
      { delivery, responseBatch := some key, responseSupersedable := supersedable }
    markDelivery (CoreState.markAprsPending setup.stores) delivery

/-- Core has executed a request: keep its responses for a replay, and queue them. A `SEND_MESSAGE`
with a durable acknowledgement is answered by that alone. -/
def finishRequest (setup : Setup) (key : TransactionKey) (messageId : Option Str) (callsign : Str)
    (request : ProtocolObject) (frame : Bytes) (responses : List Bytes) (now : ℚ) :
    Adapter Disposition := do
  activateAprs setup key.1 responses
  modify (supersedeStaleBatches key.1 key)
  modify fun s => { s with
    replay := s.replay.put setup.config.replay key ⟨frame, responses, now⟩ }
  modify (noteCompleted setup key callsign now)
  if request.isSendMessage ∧ commitAckRequested messageId then do
    confirmInbound setup key.1 messageId (← Method.ofExcept (sendWasStored responses))
    return .completed
  else do
    queueResponses setup key (!request.isSendMessage) responses
    return .completed

/-- A request that is complete and not in the replay cache. -/
def completeRequest (setup : Setup) (key : TransactionKey) (messageId : Option Str) (frame : Bytes)
    (now : ℚ) : Adapter Disposition := do
  let commitAck := commitAckRequested messageId
  let request ← Method.ofExcept (decodeFrame frame)
  if request.isRequest = false then do
    Method.when commitAck (confirmInbound setup key.1 messageId false)
    return .invalid
  else do
    Method.when (commitAck ∧ request.isSendMessage = false)
      (confirmInbound setup key.1 messageId true)
    let callsign ← Method.ofExcept (normalizeCallsign key.1 "APRS source")
    reconcileRequest setup key.1 callsign request
    let responses ← executeFrame setup key callsign frame
    finishRequest setup key messageId callsign request frame responses now

/-- A request that is complete and in the replay cache. -/
def replayRequest (setup : Setup) (key : TransactionKey) (messageId : Option Str) (cached : Replay)
    (frame : Bytes) : Adapter Disposition := do
  let commitAck := commitAckRequested messageId
  if cached.request ≠ frame then do
    Method.when commitAck (confirmInbound setup key.1 messageId false)
    return .conflict
  else do
    let request ← Method.ofExcept (decodeFrame cached.request)
    activateAprs setup key.1 cached.responses
    modify (supersedeStaleBatches key.1 key)
    if request.isSendMessage ∧ commitAck then do
      confirmInbound setup key.1 messageId (← Method.ofExcept (sendWasStored cached.responses))
      return .replayed
    else do
      Method.when commitAck (confirmInbound setup key.1 messageId true)
      cached.responses.forM fun response => do
        let _ ← queueFrame setup key.1 response
          { responseBatch := some key, responseSupersedable := !request.isSendMessage }
      return .replayed

/-- A parsed fragment: add it to its assembly, and handle the request when it is complete. -/
def receiveFragment (setup : Setup) (peer : Str) (messageId : Option Str) (fragment : APRSFragment)
    (now : ℚ) : Adapter Disposition := do
  let commitAck := commitAckRequested messageId
  let key := (peer, fragment.transactionId)
  match ← onReassembly (Reassembler.add setup.config.reassembly peer fragment now) with
  | .error e =>
    if e.isA .carriageError then do
      Method.when commitAck (confirmInbound setup peer messageId false)
      return if e.isA .transactionConflict then .conflict else .invalid
    else Method.raise e
  | .ok none => do
    Method.when commitAck (confirmInbound setup peer messageId true)
    return .fragment
  | .ok (some frame) => do
    match ← onReplay (ReplayCache.get setup.config.replay key now) with
    | some cached => replayRequest setup key messageId cached frame
    | none => completeRequest setup key messageId frame now

/-- `except (CarriageError, TypeError)` -/
def isUnparsable (e : PyError) : Bool := e.isA .carriageError || e.isA .typeError

/-- `commit_adapter.APRSAdapter.receive` -/
def receiveCommit (setup : Setup) (peer body : Str) (now : ℚ) : Adapter Disposition :=
  match validatePeer peer with
  | .error e => if e.isA .carriageError then pure .ignored else Method.raise e
  | .ok peer =>
    match matchAck body with
    | some messageId => receiveLegacyAck setup peer messageId
    | none => do
      let messageId := trailingMessageId body
      let commitAck := commitAckRequested messageId
      Method.when (messageId.isSome ∧ commitAck = false)
        (confirmInbound setup peer messageId true)
      match parseFragment body with
      | .error e =>
        if isUnparsable e then do
          Method.when commitAck (confirmInbound setup peer messageId false)
          return .ignored
        else Method.raise e
      | .ok fragment => receiveFragment setup peer messageId fragment now

/-! ### The burst layer -/

/-- A control is for the active transaction of its peer. -/
def receiveControl (setup : Setup) (peer : Str) (control : BurstControl) : Adapter Disposition := do
  let s ← get
  match s.burstActive.get? peer with
  | none => return .ignored
  | some tx =>
    match control with
    | .ack transactionId =>
      if tx.transactionId ≠ transactionId then return .ignored
      else do
        refreshAprsPresence setup peer
        completeOutbound setup peer tx
        return .acknowledged
    | .missing transactionId indices =>
      if tx.transactionId ≠ transactionId then return .ignored
      else if tx.validMissing indices = ∅ then return .ignored
      else do
        refreshAprsPresence setup peer
        modify fun s => { s with burstActive := s.burstActive.set peer (tx.repaired indices) }
        return .repairRequested

/-- How long to wait for the next fragment before asking for what is missing. -/
def Setup.grace (setup : Setup) (sawFinal : Bool) : ℚ :=
  min (if sawFinal then setup.finalFragmentGrace else setup.repairGrace) setup.repairGrace

/-- The progress of a transaction after a fragment. -/
def RxProgress.note (setup : Setup) (fragment : APRSFragment) (now : ℚ)
    (progress : Option RxProgress) : RxProgress :=
  let progress :=
    match progress with
    | some progress => if progress.total = fragment.total then progress else ⟨fragment.total, ∅, 0,
        false⟩
    | none => ⟨fragment.total, ∅, 0, false⟩
  let sawFinal := progress.sawFinal || fragment.index = fragment.total - 1
  { progress with
    received := insert fragment.index progress.received
    sawFinal := sawFinal
    deadline := now + setup.grace sawFinal }

/-- Acknowledge a request, and send the compact result of a stored `SEND_MESSAGE`. -/
def acknowledgeRequest (setup : Setup) (key : TransactionKey) (now : ℚ) : Adapter Unit := do
  let ack ← Method.ofExcept (encodeBurstAck key.2)
  sendImmediately ⟨setup.serviceCallsign, key.1, ack, false⟩
  compactStoredResult setup key now

/-- A fragment: note the progress of its transaction, and acknowledge it when it is complete. -/
def receiveBurstFragment (setup : Setup) (peer body : Str) (fragment : APRSFragment) (now : ℚ) :
    Adapter Disposition := do
  let key := (peer, fragment.transactionId)
  modify fun s => { s with
    rxProgress := s.rxProgress.set key (.note setup fragment now (s.rxProgress.get? key)) }
  let disposition ← receiveCommit setup peer body now
  Method.when (disposition = .completed ∨ disposition = .replayed)
    (acknowledgeRequest setup key now)
  Method.when (disposition = .completed ∨ disposition = .replayed ∨ disposition = .invalid ∨
      disposition = .conflict)
    (modify fun s => { s with rxProgress := s.rxProgress.erase key })
  return disposition

/-- `selective_burst.APRSAdapter.receive` -/
def receiveBurst (setup : Setup) (peer body : Str) (now : ℚ) : Adapter Disposition :=
  match validatePeer peer with
  | .error e => if e.isA .carriageError then pure .ignored else Method.raise e
  | .ok peer =>
    match parseBurstControl body with
    | some control => receiveControl setup peer control
    | none =>
      match parseFragment body with
      | .error e =>
        if isUnparsable e then receiveCommit setup peer body now else Method.raise e
      | .ok fragment => receiveBurstFragment setup peer body fragment now

/-! ### The guard -/

/-- A fragment of a request that completed lately must not open a new transaction: acknowledge it
again, and repeat the stored result of a `SEND_MESSAGE`. -/
def receiveReplayed (setup : Setup) (key : TransactionKey) (now : ℚ) : Adapter Disposition := do
  modify fun s => { s with rxProgress := s.rxProgress.erase key }
  acknowledgeRequest setup key now
  return .replayed

/-- The peer and the fragment of a packet. -/
def parsePacket (peer body : Str) : Py (Str × APRSFragment) := do
  let peer ← validatePeer peer
  return (peer, ← parseFragment body)

/-- `selective_burst_guarded.APRSAdapter.receive` -/
def receive (setup : Setup) (peer body : Str) (now : ℚ) : Adapter Disposition :=
  match parsePacket peer body with
  | .error e => if isUnparsable e then receiveBurst setup peer body now else Method.raise e
  | .ok (peer, fragment) => do
    let key := (peer, fragment.transactionId)
    match ← onReplay (ReplayCache.get setup.config.replay key now) with
    | some _ => receiveReplayed setup key now
    | none => receiveBurst setup peer body now

end OpenQSP
