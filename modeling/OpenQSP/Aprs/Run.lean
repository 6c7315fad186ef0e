import OpenQSP.Aprs.Receive
import OpenQSP.Lib.Runs

/-!
# Polling, and runs of the adapter

`poll` collects what may be sent now: controls, due packets of the active transactions, and one
new transaction for each peer that has none. A run of the adapter is any sequence of calls of its
methods, with any changes that other transports make to the core in between. A call that raises
keeps what it changed.

## Main definitions

* `Emission`, `pollEmissions`, `poll`
* `Call`, `Call.method`, `step` — one call
* `APRSAdapter.initial`, `runState`, `AtCall`, `MonotoneClock`
-/

namespace OpenQSP

open APRSAdapter

/-! ### Polling -/

/-- What `poll` sends: a control, or packets of a transaction. -/
inductive Emission
  | control (packet : OutboundPacket)
  | frame (tx : BurstTx) (packets : List OutboundPacket)

def Emission.packets : Emission → List OutboundPacket
  | control packet => [packet]
  | frame _ packets => packets

/-- A packet was sent to the peer less than `min_interval` ago. -/
def APRSAdapter.sentRecently (setup : Setup) (peer : Str) (now : ℚ) (s : APRSAdapter) : Bool :=
  (s.lastSend.get? peer).any fun last => now - last < setup.config.minInterval

/-- Ask for the missing fragments of one incomplete transaction. -/
def pollProgress (setup : Setup) (now : ℚ) (e : TransactionKey × RxProgress) :
    Adapter (List Emission) :=
  if now < e.2.deadline then pure []
  else if e.2.missing = ∅ then do
    modify fun s => { s with rxProgress := s.rxProgress.erase e.1 }
    return []
  else do
    let body ← Method.ofExcept (encodeMissing e.1.2 e.2.missing)
    modify fun s => { s with
      rxProgress := s.rxProgress.set e.1 { e.2 with
        deadline := now + setup.grace e.2.sawFinal } }
    return [.control ⟨setup.serviceCallsign, e.1.1, body, false⟩]

/-- Repeat or repair one active transaction, or give it up. -/
def pollActive (setup : Setup) (now : ℚ) (e : Str × BurstTx) : Adapter (List Emission) :=
  match e.2.due now with
  | .nothing => pure []
  | .exhausted => do
    failOutbound setup e.1 e.2
    return []
  | .send indices =>
    if setup.config.maxAttempts ≤ e.2.attempts then do
      failOutbound setup e.1 e.2
      return []
    else do
      let s ← get
      if s.sentRecently setup e.1 now then do
        modify fun s => { s with burstActive := s.burstActive.set e.1 (e.2.deferred now) }
        return []
      else do
        modify fun s => { s with
          burstActive := s.burstActive.set e.1 (e.2.retried (now + setup.config.ackTimeout))
          lastSend := s.lastSend.set e.1 now }
        return [.frame e.2 (e.2.packetsAt indices)]

/-- Start one queued transaction if its peer has no active one. -/
def pollQueued (setup : Setup) (now : ℚ) (tx : BurstTx) : Adapter (List Emission) := do
  let s ← get
  if tx.peer ∈ s.burstActive.keys then return []
  else if s.sentRecently setup tx.peer now then return []
  else do
    modify fun s => { s with
      burstQueue := s.burstQueue.erase tx
      burstActive := s.burstActive.set tx.peer (tx.started (now + setup.config.ackTimeout))
      lastSend := s.lastSend.set tx.peer now }
    return [.frame tx tx.packets]

/-- Responses go before proactive messages, each in the order in which they were queued. -/
def candidates (queue : List BurstTx) : List BurstTx :=
  queue.insertionSort fun tx tx' =>
    tx.priority < tx'.priority ∨ (tx.priority = tx'.priority ∧ tx.order ≤ tx'.order)

/-- Forget what is too old. -/
def expireAll (setup : Setup) (now : ℚ) (s : APRSAdapter) : APRSAdapter :=
  expireActivity setup now { s with
    reassembly := s.reassembly.expire setup.config.reassembly now
    replay := s.replay.expire setup.config.replay now }

/-- `packets, self._immediate = self._immediate, []` -/
def takeImmediate : Adapter (List OutboundPacket) := do
  let s ← get
  modify fun s => { s with immediate := [] }
  return s.immediate

def pollAllProgress (setup : Setup) (now : ℚ) : Adapter (List (List Emission)) := do
  let s ← get
  s.rxProgress.entries.mapM (pollProgress setup now)

def pollAllActive (setup : Setup) (now : ℚ) : Adapter (List (List Emission)) := do
  let s ← get
  s.burstActive.entries.mapM (pollActive setup now)

def pollAllQueued (setup : Setup) (now : ℚ) : Adapter (List (List Emission)) := do
  let s ← get
  (candidates s.burstQueue).mapM (pollQueued setup now)

/-- What `poll` sends, in its order. -/
def pollEmissions (setup : Setup) (now : ℚ) : Adapter (List Emission) := do
  let immediate ← takeImmediate
  let progress ← pollAllProgress setup now
  let active ← pollAllActive setup now
  let queued ← pollAllQueued setup now
  modify (expireAll setup now)
  return immediate.map .control ++ progress.flatten ++ active.flatten ++ queued.flatten

/-- `poll` -/
def poll (setup : Setup) (now : ℚ) : Adapter (List OutboundPacket) := do
  return (← pollEmissions setup now).flatMap Emission.packets

/-! ### Runs -/

/-- One call of a method of the adapter, or a change that others make to the core between two
calls. -/
inductive Call
  | receive (peer body : Str) (now : ℚ)
  | poll (now : ℚ)
  | queueFrame (peer : Str) (frame : Bytes) (options : QueueOptions)
  | deliverMessage (message : Message) (endpoint : Str)
  | connectionLost
  | core (change : CoreState → CoreState)

/-- What a call returns. -/
inductive Response
  | disposition (value : Disposition)
  | packets (emissions : List Emission)
  | transaction (transactionId : Str)
  | none

/-- The method that a call runs. -/
def Call.method (setup : Setup) : Call → Adapter Response
  | .receive peer body now => do return .disposition (← OpenQSP.receive setup peer body now)
  | .poll now => do return .packets (← pollEmissions setup now)
  | .queueFrame peer frame options => do
    return .transaction (← OpenQSP.queueFrame setup peer frame options)
  | .deliverMessage message endpoint => do
    OpenQSP.deliverMessage setup message endpoint
    return .none
  | .connectionLost => do
    OpenQSP.connectionLost setup
    return .none
  | .core change => do
    modify fun s => { s with core := change s.core }
    return .none

/-- The clock of a call that reads it. -/
def Call.time : Call → Option ℚ
  | .receive _ _ now | .poll now => some now
  | _ => Option.none

/-- The state that a call leaves, whether it returns or raises. -/
def step (setup : Setup) (s : APRSAdapter) (call : Call) : APRSAdapter :=
  ((call.method setup).run s).2

/-- What a call returns or raises. -/
def answer (setup : Setup) (s : APRSAdapter) (call : Call) : Py Response :=
  ((call.method setup).run s).1

/-- A new adapter for a core. -/
def APRSAdapter.initial (core : CoreState) : APRSAdapter := { core }

/-- The state after the first `i` calls of a run of a new adapter. -/
def runState (setup : Setup) (core : CoreState) (calls : List Call) (i : ℕ) : APRSAdapter :=
  stateAt (step setup) (.initial core) calls i

/-- Call `n` of a run, in the state it finds, has a property. -/
def AtCall (setup : Setup) (core : CoreState) (calls : List Call) (n : ℕ)
    (P : APRSAdapter → Call → Prop) : Prop :=
  ∃ h : n < calls.length, P (runState setup core calls n) calls[n]

/-- The clock never goes backwards. -/
def MonotoneClock (calls : List Call) : Prop := (calls.filterMap Call.time).Pairwise (· ≤ ·)

instance (calls : List Call) : Decidable (MonotoneClock calls) :=
  inferInstanceAs (Decidable (List.Pairwise _ _))

theorem MonotoneClock.le {calls : List Call} (h : MonotoneClock calls) {i j : ℕ} (hij : i < j)
    (hj : j < calls.length) {now now' : ℚ} (hi : calls[i].time = some now)
    (hj' : calls[j].time = some now') : now ≤ now' :=
  List.pairwise_iff_getElem.mp (List.pairwise_filterMap.mp h) i j (hij.trans hj) hj hij now hi now'
    hj'

end OpenQSP
