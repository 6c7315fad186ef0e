import OpenQSP.Aprs.Run
import OpenQSP.Commit.Adapter

/-!
# Receiving and polling

What the exported adapter does with an APRS message body and what it sends, and runs of it. It is
the method `receive` of `commit_adapter` again, this time with the queue of its own base class; a
packet is acknowledged by `ack` and its message id.

## Main definitions

* `receive`, `poll`
* `Call`, `Call.method`, `step` — one call
* `CommitAPRSAdapter.initial`, `runState`
-/

namespace OpenQSP

namespace CommitAPRSAdapter

/-! ### Requests -/

/-- Mark the delivery of a packet, if it has one. -/
def markDelivery (setup : CommitSetup) (status : DeliveryStatus) : Option Delivery →
    CommitAdapter Unit
  | none => pure ()
  | some delivery => mark setup status delivery

/-- The acknowledgement of a packet: its delivery is confirmed when nothing else of its transaction
waits. -/
def receiveAck (setup : CommitSetup) (peer messageId : Str) : CommitAdapter Disposition := do
  let s ← get
  match s.pending.get? (peer, messageId) with
  | none => return .ignored
  | some pending => do
    modify fun s => { s with
      pending := s.pending.erase (peer, messageId)
      acked := s.acked ++ [pending.item] }
    let s ← get
    let outstanding := s.queue.any (fun item =>
        item.peer = peer && item.fragment.transactionId = pending.transactionId) ||
      s.pending.entries.any fun e => e.1.1 = peer && e.2.transactionId = pending.transactionId
    Method.when (outstanding = false) (markDelivery setup .delivered pending.delivery)
    return .acknowledged

/-- `_reconcile_message_cursor`: a cursor proves that older deliveries were received. -/
def reconcileMessageCursor (setup : CommitSetup) (peer callsign : Str) (since : ℤ) :
    CommitAdapter Unit := do
  let s ← get
  let queued (item : QueuedFragment) : Bool :=
    item.peer = peer && isCovered callsign since item.delivery
  let pending (e : (Str × Str) × PendingFragment) : Bool :=
    e.1.1 = peer && isCovered callsign since e.2.delivery
  let confirmed := ((s.queue.filter queued).filterMap (·.delivery) ++
    (s.pending.filter pending).values.filterMap (·.delivery)).dedup
  let retained := s.queue.filter fun item => !queued item
  modify fun s => { s with
    queue := if retained.length ≠ s.queue.length then Heapq.heapify QueuedFragment.le retained
      else s.queue
    pending := s.pending.filter fun e => !pending e }
  confirmed.forM (mark setup .delivered)

/-- Only a `GET_NEW_MESSAGES` carries a cursor of the mailbox. -/
def reconcileRequest (setup : CommitSetup) (peer callsign : Str) : ProtocolObject →
    CommitAdapter Unit
  | .getNewMessages request => reconcileMessageCursor setup peer callsign request.since
  | _ => pure ()

/-- `_dispatch` with the router as a listener: a message that was stored is routed at once, before
the response to its request exists. -/
def dispatchRouted (setup : CommitSetup) (callsign : Str) (request : ProtocolObject) :
    CommitAdapter (List ProtocolObject) := do
  let s ← get
  let (responses, events) ←
    onCore (CoreState.onTables (dispatch setup.stores s.core.clock callsign request))
  events.forM (routeMessage setup)
  return responses

/-- `ServerCore.handle_frame`, noted in `executions`. -/
def executeFrame (setup : CommitSetup) (key : TransactionKey) (callsign : Str) (frame : Bytes) :
    CommitAdapter (List Bytes) := ⟨fun s =>
  let (outcome, s') := (handleFrame (dispatchRouted setup) callsign frame).run s
  (outcome, { s' with
    executions := s'.executions ++
      [⟨key, callsign, frame, outcome, s.core.tables, s'.core.tables⟩] })⟩

/-- `_expire_activity` -/
def expireActivity (setup : CommitSetup) (now : ℚ) (s : CommitAPRSAdapter) : CommitAPRSAdapter :=
  { s with
    activity := s.activity.filter fun e => ¬setup.config.activityTimeout ≤ now - e.2.2 }

/-- A request of `peer` completed: note its activity, and the transaction in the history. -/
def noteCompleted (setup : CommitSetup) (key : TransactionKey) (callsign : Str) (now : ℚ)
    (s : CommitAPRSAdapter) : CommitAPRSAdapter :=
  let s := expireActivity setup now s
  let activity :=
    if key.1 ∉ s.activity.keys ∧ setup.config.maxActivityPeers ≤ s.activity.size then
      match s.activity.entries.argmin fun e => e.2.2 with
      | some oldest => s.activity.erase oldest.1
      | none => s.activity
    else s.activity
  { s with
    activity := activity.set key.1 (callsign, now)
    completedTransactions :=
      lastN setup.config.eventHistoryCapacity (s.completedTransactions ++ [key]) }

/-- Queue one response of a request that was just executed. -/
def queueResponse (setup : CommitSetup) (key : TransactionKey) (supersedable : Bool)
    (response : Bytes) :
    CommitAdapter Unit := do
  let delivery ← Method.ofExcept (deliveryOf response)
  let _ ← queueFrame setup key.1 response
    { delivery, responseBatch := some key, responseSupersedable := supersedable }
  markDelivery setup .pending delivery

/-- Core has executed a request: keep its responses for a replay, and queue them. A `SEND_MESSAGE`
with a durable acknowledgement is answered by that alone. -/
def finishRequest (setup : CommitSetup) (key : TransactionKey) (messageId : Option Str)
    (callsign : Str)
    (request : ProtocolObject) (frame : Bytes) (responses : List Bytes) (now : ℚ) :
    CommitAdapter Disposition := do
  activateAprs setup key.1 responses
  modify (supersedeStaleBatches key.1 key)
  modify fun s => { s with
    replay := s.replay.put setup.config.replay key ⟨frame, responses, now⟩ }
  modify (noteCompleted setup key callsign now)
  if request.isSendMessage ∧ commitAckRequested messageId then do
    confirmInbound setup key.1 messageId (← Method.ofExcept (sendWasStored responses))
    return .completed
  else do
    responses.forM (queueResponse setup key (!request.isSendMessage))
    return .completed

/-- A request that is complete and not in the replay cache. -/
def completeRequest (setup : CommitSetup) (key : TransactionKey) (messageId : Option Str)
    (frame : Bytes)
    (now : ℚ) : CommitAdapter Disposition := do
  let commitAck := commitAckRequested messageId
  let request ← Method.ofExcept (decodeFrame frame)
  if request.isRequest = false then do
    Method.when commitAck (confirmInbound setup key.1 messageId false)
    return .invalid
  else do
    Method.when (commitAck ∧ request.isSendMessage = false)
      (confirmInbound setup key.1 messageId true)
    let callsign ← Method.ofExcept (normalizeCallsign key.1 "APRS source")
    reconcileRequest setup key.1 callsign request
    let responses ← executeFrame setup key callsign frame
    finishRequest setup key messageId callsign request frame responses now

/-- A request that is complete and in the replay cache. -/
def replayRequest (setup : CommitSetup) (key : TransactionKey) (messageId : Option Str)
    (cached : Replay)
    (frame : Bytes) : CommitAdapter Disposition := do
  let commitAck := commitAckRequested messageId
  if cached.request ≠ frame then do
    Method.when commitAck (confirmInbound setup key.1 messageId false)
    return .conflict
  else do
    let request ← Method.ofExcept (decodeFrame cached.request)
    activateAprs setup key.1 cached.responses
    modify (supersedeStaleBatches key.1 key)
    if request.isSendMessage ∧ commitAck then do
      confirmInbound setup key.1 messageId (← Method.ofExcept (sendWasStored cached.responses))
      return .replayed
    else do
      Method.when commitAck (confirmInbound setup key.1 messageId true)
      cached.responses.forM fun response => do
        let _ ← queueFrame setup key.1 response
          { responseBatch := some key, responseSupersedable := !request.isSendMessage }
      return .replayed

/-- A parsed fragment: add it to its assembly, and handle the request when it is complete. -/
def receiveFragment (setup : CommitSetup) (peer : Str) (messageId : Option Str)
    (fragment : APRSFragment)
    (now : ℚ) : CommitAdapter Disposition := do
  let commitAck := commitAckRequested messageId
  let key := (peer, fragment.transactionId)
  match ← onReassembly (Reassembler.add setup.config.reassembly peer fragment now) with
  | .error e =>
    if e.isA .carriageError then do
      Method.when commitAck (confirmInbound setup peer messageId false)
      return if e.isA .transactionConflict then .conflict else .invalid
    else Method.raise e
  | .ok none => do
    Method.when commitAck (confirmInbound setup peer messageId true)
    return .fragment
  | .ok (some frame) => do
    match ← onReplay (ReplayCache.get setup.config.replay key now) with
    | some cached => replayRequest setup key messageId cached frame
    | none => completeRequest setup key messageId frame now

/-- `commit_adapter.APRSAdapter.receive` -/
def receive (setup : CommitSetup) (peer body : Str) (now : ℚ) : CommitAdapter Disposition :=
  match validatePeer peer with
  | .error e => if e.isA .carriageError then pure .ignored else Method.raise e
  | .ok peer =>
    match matchAck body with
    | some messageId => receiveAck setup peer messageId
    | none => do
      let messageId := trailingMessageId body
      let commitAck := commitAckRequested messageId
      Method.when (messageId.isSome ∧ commitAck = false)
        (confirmInbound setup peer messageId true)
      match parseFragment body with
      | .error e =>
        if isUnparsable e then do
          Method.when commitAck (confirmInbound setup peer messageId false)
          return .ignored
        else Method.raise e
      | .ok fragment => receiveFragment setup peer messageId fragment now

/-! ### Polling -/

/-- What `poll` sends: a control, or a fragment for the first time or once more. -/
inductive Emission
  | control (packet : OutboundPacket)
  | first (item : QueuedFragment) (packet : OutboundPacket)
  | retry (item : QueuedFragment) (packet : OutboundPacket)

namespace Emission

def packet : Emission → OutboundPacket
  | control packet | first _ packet | retry _ packet => packet

/-- The fragment that is sent. -/
def item : Emission → Option QueuedFragment
  | control _ => none
  | first item _ | retry item _ => some item

end Emission

/-- A packet was sent to the peer less than `min_interval` ago. -/
def sentRecently (setup : CommitSetup) (peer : Str) (now : ℚ) (s : CommitAPRSAdapter) : Bool :=
  (s.lastSend.get? peer).any fun last => now - last < setup.config.minInterval

/-- One turn of the loop of `poll`: repeat an unacknowledged packet, or give its transaction up. A
packet is passed over when the failure of another one has removed it. -/
def pollPending (setup : CommitSetup) (now : ℚ) (key : Str × Str) : CommitAdapter (List Emission) :=
  do
  let s ← get
  match s.pending.get? key with
  | none => return []
  | some pending =>
    if now < pending.deadline then return []
    else if setup.config.maxAttempts ≤ pending.attempts then do
      modify fun s => { s with
        failedPackets := lastN setup.config.eventHistoryCapacity
          (s.failedPackets ++ [pending.packet]) }
      failTransaction setup key.1 pending
      return []
    else if s.sentRecently setup pending.packet.destination now then return []
    else do
      modify fun s => { s with
        pending := s.pending.set key (pending.retried (now + setup.config.ackTimeout))
        lastSend := s.lastSend.set pending.packet.destination now }
      return [.retry pending.item pending.packet]

/-- Send the first fragment of the queue, if nothing else waits for its peer. -/
def pollQueue (setup : CommitSetup) (now : ℚ) : CommitAdapter (List Emission) := do
  let s ← get
  match Heapq.heappop QueuedFragment.le s.queue with
  | none => return []
  | some (item, queue) =>
    if s.pending.keys.any fun key => key.1 = item.peer then return []
    else if s.sentRecently setup item.peer now then return []
    else do
      modify fun s => { s with queue := queue }
      let body ← Method.ofExcept item.fragment.body
      let packet : OutboundPacket := ⟨setup.serviceCallsign, item.peer, body, false⟩
      modify fun s => { s with
        pending := s.pending.set (item.peer, item.fragment.messageId.getD [])
          (item.sent packet (now + setup.config.ackTimeout))
        lastSend := s.lastSend.set item.peer now }
      return [.first item packet]

/-- Forget what is too old. -/
def expireAll (setup : CommitSetup) (now : ℚ) (s : CommitAPRSAdapter) : CommitAPRSAdapter :=
  expireActivity setup now { s with
    reassembly := s.reassembly.expire setup.config.reassembly now
    replay := s.replay.expire setup.config.replay now }

/-- `packets, self._immediate = self._immediate, []` -/
def takeImmediate : CommitAdapter (List OutboundPacket) := do
  let s ← get
  modify fun s => { s with immediate := [] }
  return s.immediate

/-- What `poll` sends, in its order. -/
def pollEmissions (setup : CommitSetup) (now : ℚ) : CommitAdapter (List Emission) := do
  let immediate ← takeImmediate
  let s ← get
  let retried ← s.pending.keys.mapM (pollPending setup now)
  let sent ← pollQueue setup now
  modify (expireAll setup now)
  return immediate.map .control ++ retried.flatten ++ sent

/-- `poll` -/
def poll (setup : CommitSetup) (now : ℚ) : CommitAdapter (List OutboundPacket) := do
  return (← pollEmissions setup now).map Emission.packet

/-! ### Runs -/

/-- One call of a method of the adapter, or a change that others make to the core between two
calls. -/
inductive Call
  | receive (peer body : Str) (now : ℚ)
  | poll (now : ℚ)
  | queueFrame (peer : Str) (frame : Bytes) (options : QueueOptions)
  | deliverMessage (message : Message) (endpoint : Str)
  | connectionLost
  | core (change : CoreState → CoreState)

/-- What a call returns. -/
inductive Response
  | disposition (value : Disposition)
  | packets (emissions : List Emission)
  | transaction (transactionId : Str)
  | none

/-- The method that a call runs. -/
def Call.method (setup : CommitSetup) : Call → CommitAdapter Response
  | .receive peer body now => do
    return .disposition (← CommitAPRSAdapter.receive setup peer body now)
  | .poll now => do return .packets (← CommitAPRSAdapter.pollEmissions setup now)
  | .queueFrame peer frame options => do
    return .transaction (← CommitAPRSAdapter.queueFrame setup peer frame options)
  | .deliverMessage message endpoint => do
    CommitAPRSAdapter.deliverMessage setup message endpoint
    return .none
  | .connectionLost => do
    CommitAPRSAdapter.connectionLost setup
    return .none
  | .core change => do
    modify fun s => { s with core := change s.core }
    return .none

/-- The state that a call leaves, whether it returns or raises. -/
def step (setup : CommitSetup) (s : CommitAPRSAdapter) (call : Call) : CommitAPRSAdapter :=
  ((call.method setup).run s).2

/-- What a call returns or raises. -/
def answer (setup : CommitSetup) (s : CommitAPRSAdapter) (call : Call) : Py Response :=
  ((call.method setup).run s).1

/-- What a call sends. -/
def emissions (setup : CommitSetup) (s : CommitAPRSAdapter) (call : Call) : List Emission :=
  match answer setup s call with
  | .ok (.packets es) => es
  | _ => []

/-- A new adapter for a core. -/
def initial (core : CoreState) : CommitAPRSAdapter := { core }

/-- The state after the first `i` calls of a run of a new adapter. -/
def runState (setup : CommitSetup) (core : CoreState) (calls : List Call) (i : ℕ) :
    CommitAPRSAdapter :=
  stateAt (step setup) (initial core) calls i

end CommitAPRSAdapter

end OpenQSP
