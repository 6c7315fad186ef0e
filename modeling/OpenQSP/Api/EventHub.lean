import Mathlib.Data.Finset.Basic
import OpenQSP.Server.Presence

/-!
# WebSocket connections

The hub keeps the sockets of every account, the session id of every socket, and shares the presence
registry with the other transports. A new socket replaces the older ones of its account: `connect`
takes them out, closes them one after the other, and only then registers the new one. It suspends
while it accepts its socket, while another `connect` holds the lock, and at each close; `remove`,
`record_internet_activity` and the methods of the registry may run at any of these points.

A close returns or raises one of the exceptions that `connect` catches, and a session id is one that
was not used before, as `uuid4` makes them.

## Main definitions

* `PresenceRegistry.setWebsocket`, `setAprs`, `clear`, `clearWebsocket`, `clearAprs`
* `EventHub`, `EventHub.register`, `EventHub.recordInternetActivity`, `EventHub.remove`
* `ConnectTask`, `HubSystem`, `HubSystem.step` — calls of `connect`, interleaved at their awaits
-/

namespace OpenQSP

/-! ### The presence registry -/

/-- `PresenceRegistry._users` -/
abbrev PresenceRegistry := OrderedDict Str ActiveTransport

namespace PresenceRegistry

def setWebsocket (callsign sessionId : Str) : Method PyError PresenceRegistry Unit := do
  let callsign ← Method.ofExcept (validateCallsign callsign "callsign")
  Method.ofExcept (raiseIf (sessionId = []) ⟨.valueError, "session_id is required"⟩)
  modify fun users => users.set callsign (.websocket sessionId)

def setAprs (callsign endpoint : Str) : Method PyError PresenceRegistry Unit := do
  let callsign ← Method.ofExcept (validateCallsign callsign "callsign")
  Method.ofExcept (raiseIf (endpoint = []) ⟨.valueError, "APRS endpoint is required"⟩)
  modify fun users => users.set callsign (.aprs endpoint)

/-- Remove the current route, whatever its transport. -/
def clear (callsign : Str) : Method PyError PresenceRegistry Bool := do
  let callsign ← Method.ofExcept (validateCallsign callsign "callsign")
  let users ← get
  modify fun users => users.erase callsign
  return (users.get? callsign).isSome

/-- Remove the route `route` if it is still the current one. -/
def clearRoute (callsign : Str) (route : ActiveTransport) : Method PyError PresenceRegistry Bool :=
  do
  let callsign ← Method.ofExcept (validateCallsign callsign "callsign")
  let users ← get
  if users.get? callsign = some route then do
    modify fun users => users.erase callsign
    return true
  else return false

def clearWebsocket (callsign sessionId : Str) : Method PyError PresenceRegistry Bool :=
  clearRoute callsign (.websocket sessionId)

def clearAprs (callsign endpoint : Str) : Method PyError PresenceRegistry Bool :=
  clearRoute callsign (.aprs endpoint)

end PresenceRegistry

/-- The core and the hub share one registry. -/
theorem CoreState.setAprs_run (callsign endpoint : Str) (core : CoreState) :
    (CoreState.setAprs callsign endpoint).run core =
      (((PresenceRegistry.setAprs callsign endpoint).run core.presence).1,
        { core with presence := ((PresenceRegistry.setAprs callsign endpoint).run
          core.presence).2 }) := by
  rw [CoreState.setAprs, PresenceRegistry.setAprs]
  cases validateCallsign callsign "callsign" with
  | error e => rfl
  | ok callsign =>
    simp only [Method.run_ofExcept_ok_bind]
    cases raiseIf (endpoint = []) ⟨.valueError, "APRS endpoint is required"⟩ <;> rfl

/-! ### The hub -/

section Hub

variable {Socket : Type} [DecidableEq Socket]

structure EventHub (Socket : Type) where
  connections : OrderedDict Str (Finset Socket) := .empty
  sessions : OrderedDict Str Socket := .empty
  presence : PresenceRegistry := .empty

namespace EventHub

/-- `self.connections.get(callsign, ())` -/
def connected (callsign : Str) (hub : EventHub Socket) : Finset Socket :=
  (hub.connections.get? callsign).getD ∅

/-- Run a method of the presence registry. -/
def onPresence {α : Type} (m : Method PyError PresenceRegistry α) :
    Method PyError (EventHub Socket) α :=
  ⟨fun hub => ((m.run hub.presence).1, { hub with presence := (m.run hub.presence).2 })⟩

/-- The end of `connect`: the new socket is the one of its account. -/
def register (callsign : Str) (socket : Socket) (sessionId : Str) :
    Method PyError (EventHub Socket) Unit := do
  onPresence (PresenceRegistry.setWebsocket callsign sessionId)
  modify fun hub => { hub with
    connections := hub.connections.set callsign (insert socket (hub.connected callsign))
    sessions := hub.sessions.set sessionId socket }

/-- `record_internet_activity`: the last valid communication selects the transport. -/
def recordInternetActivity (callsign : Str) : Method PyError (EventHub Socket) Unit := do
  let hub ← get
  match hub.sessions.entries.find? fun e => e.2 ∈ hub.connected callsign with
  | none => do
    let _ ← onPresence (PresenceRegistry.clear callsign)
  | some (sessionId, _) => onPresence (PresenceRegistry.setWebsocket callsign sessionId)

/-- The session of a socket. -/
def sessionOf (socket : Socket) (hub : EventHub Socket) : Option Str :=
  (hub.sessions.entries.find? fun e => e.2 = socket).map Prod.fst

/-- Discard a socket of an account, and the account with its last socket. -/
def discard (callsign : Str) (socket : Socket) (hub : EventHub Socket) : EventHub Socket :=
  let left := (hub.connected callsign).erase socket
  { hub with
    connections := if left = ∅ then hub.connections.erase callsign
      else hub.connections.set callsign left }

def remove (callsign : Str) (socket : Socket) (sessionId : Option Str) :
    Method PyError (EventHub Socket) Unit := do
  modify (discard callsign socket)
  let hub ← get
  match sessionId.or (hub.sessionOf socket) with
  | none => pure ()
  | some sessionId => do
    modify fun hub => { hub with sessions := hub.sessions.erase sessionId }
    let _ ← onPresence (PresenceRegistry.clearWebsocket callsign sessionId)

end EventHub

/-! ### Interleaved connections -/

/-- How far a call of `connect` has come. -/
inductive ConnectPhase (Socket : Type)
  /-- It waits for its socket to be accepted. -/
  | accepting
  /-- It waits for the lock. -/
  | waiting
  /-- It has taken out the older sockets, closes one of them, and has others left to close. -/
  | closing (old : Socket) (rest : List Socket)
  | registered (sessionId : Str)
  /-- It raised. -/
  | failed
  deriving DecidableEq

/-- A socket that an account connects, or has connected. -/
structure ConnectTask (Socket : Type) where
  callsign : Str
  phase : ConnectPhase Socket
  /-- A later call of `connect` closes or has closed it. No code reads it. -/
  superseded : Bool := false
  deriving DecidableEq

structure HubSystem (Socket : Type) where
  hub : EventHub Socket := {}
  tasks : OrderedDict Socket (ConnectTask Socket) := .empty
  /-- The call of `connect` that holds the lock. -/
  lock : Option Socket := none

inductive HubAction (Socket : Type)
  /-- An account opens a socket. -/
  | connect (callsign : Str) (socket : Socket)
  /-- The socket is accepted. -/
  | accepted (socket : Socket)
  /-- The lock is free; the older sockets come in any order. -/
  | acquire (socket : Socket) (previous : List Socket) (sessionId : Str)
  /-- The older socket is closed. -/
  | closed (socket : Socket) (sessionId : Str)
  /-- `remove`, with the session id that `connect` returned or without one. -/
  | remove (socket : Socket) (known : Bool)
  | recordInternetActivity (callsign : Str)
  | setAprs (callsign endpoint : Str)
  | clearAprs (callsign endpoint : Str)
  | clear (callsign : Str)

namespace HubSystem

/-- The session id is not one that was used before. -/
def Unused (sessionId : Str) (s : HubSystem Socket) : Prop :=
  sessionId ≠ [] ∧ ∀ e ∈ s.tasks.entries, e.2.phase ≠ .registered sessionId

instance (sessionId : Str) (s : HubSystem Socket) : Decidable (s.Unused sessionId) :=
  inferInstanceAs (Decidable (_ ∧ _))

/-- A call of `connect` comes to its next await. -/
def setPhase (socket : Socket) (phase : ConnectPhase Socket) (s : HubSystem Socket) :
    HubSystem Socket :=
  { s with
    tasks := match s.tasks.get? socket with
      | some task => s.tasks.set socket { task with phase }
      | none => s.tasks }

/-- Note that a socket is closed by a later call of `connect`. -/
def supersede (socket : Socket) (s : HubSystem Socket) : HubSystem Socket :=
  { s with
    tasks := match s.tasks.get? socket with
      | some task => s.tasks.set socket { task with superseded := true }
      | none => s.tasks }

/-- The loop of `connect`: the sessions of the next older socket end before it is closed, and after
the last one the new socket is registered and the lock released. -/
def proceed (callsign : Str) (socket : Socket) (sessionId : Str) (olds : List Socket)
    (s : HubSystem Socket) : HubSystem Socket :=
  match olds with
  | old :: rest =>
    ({ s with hub := { s.hub with sessions := s.hub.sessions.filter fun e => e.2 ≠ old } }.supersede
      old).setPhase socket (.closing old rest)
  | [] =>
    match (EventHub.register callsign socket sessionId).run s.hub with
    | (.ok _, hub) => { s with hub, lock := none }.setPhase socket (.registered sessionId)
    | (.error _, hub) => { s with hub, lock := none }.setPhase socket .failed

/-- Run a method of the hub; what it raises is not of interest here. -/
def onHub {α : Type} (m : Method PyError (EventHub Socket) α) (s : HubSystem Socket) :
    HubSystem Socket :=
  { s with hub := (m.run s.hub).2 }

/-- One step, if it is possible. -/
def step (s : HubSystem Socket) : HubAction Socket → Option (HubSystem Socket)
  | .connect callsign socket =>
    if socket ∈ s.tasks.keys then none
    else some { s with tasks := s.tasks.set socket ⟨callsign, .accepting, false⟩ }
  | .accepted socket => do
    let task ← s.tasks.get? socket
    if task.phase = .accepting then some (s.setPhase socket .waiting) else none
  | .acquire socket previous sessionId => do
    let task ← s.tasks.get? socket
    if task.phase = .waiting ∧ s.lock = none ∧ previous.Nodup ∧
        previous.toFinset = s.hub.connected task.callsign ∧ s.Unused sessionId then
      some (({ s with
        lock := some socket
        hub := { s.hub with connections := s.hub.connections.erase task.callsign } } :
          HubSystem Socket).proceed task.callsign socket sessionId previous)
    else none
  | .closed socket sessionId => do
    let task ← s.tasks.get? socket
    match task.phase with
    | .closing _ rest =>
      if s.Unused sessionId then some (s.proceed task.callsign socket sessionId rest) else none
    | _ => none
  | .remove socket known => do
    let task ← s.tasks.get? socket
    match known, task.phase with
    | true, .registered sessionId =>
      some (s.onHub (EventHub.remove task.callsign socket (some sessionId)))
    | true, _ => none
    | false, _ => some (s.onHub (EventHub.remove task.callsign socket none))
  | .recordInternetActivity callsign => some (s.onHub (EventHub.recordInternetActivity callsign))
  | .setAprs callsign endpoint =>
    some (s.onHub (EventHub.onPresence (PresenceRegistry.setAprs callsign endpoint)))
  | .clearAprs callsign endpoint =>
    some (s.onHub (EventHub.onPresence (PresenceRegistry.clearAprs callsign endpoint)))
  | .clear callsign => some (s.onHub (EventHub.onPresence (PresenceRegistry.clear callsign)))

/-- The states that some order of steps leads to. -/
inductive Reachable : HubSystem Socket → Prop
  | start : Reachable {}
  | step {s s' : HubSystem Socket} {action : HubAction Socket} (before : Reachable s)
      (last : s.step action = some s') : Reachable s'

/-- A call of `connect` of this account has taken out an older socket and has not registered its own
one. -/
def Replacing (callsign : Str) (s : HubSystem Socket) : Prop :=
  ∃ socket task old rest, s.tasks.get? socket = some task ∧ task.callsign = callsign ∧
    task.phase = .closing old rest

end HubSystem

end Hub

end OpenQSP
