import OpenQSP.Server.Core

/-!
# Presence, routing and delivery states

The server core as a transport sees it: the database, the wall clock, and the presence registry
that says where the messages of a user go without being asked for.

A message goes to exactly the transport that the recipient selected last. Only the APRS endpoint
is of interest here; a WebSocket session receives its messages elsewhere.

## Main definitions

* `CoreState`, `CoreState.onTables`
* `setAprs`, `aprsEndpoint`
* `markAprsPending`, `markAprsDelivered`, `markAprsFailed`, `aprsStatus`
-/

namespace OpenQSP

/-- The transport that a user selected. -/
inductive ActiveTransport
  | websocket (sessionId : Str)
  | aprs (endpoint : Str)
  deriving DecidableEq

structure CoreState where
  tables : Tables
  /-- `int(time.time())` -/
  clock : ℤ
  /-- `PresenceRegistry._users` -/
  presence : OrderedDict Str ActiveTransport

namespace CoreState

/-- Run a method of the database. -/
def onTables {α : Type} (m : Method PyError Tables α) : Method PyError CoreState α :=
  ⟨fun core => ((m.run core.tables).1, { core with tables := (m.run core.tables).2 })⟩

/-- `PresenceRegistry.set_aprs` -/
def setAprs (callsign endpoint : Str) : Method PyError CoreState Unit := do
  let callsign ← Method.ofExcept (validateCallsign callsign "callsign")
  Method.ofExcept (raiseIf (endpoint = []) ⟨.valueError, "APRS endpoint is required"⟩)
  modify fun core => { core with presence := core.presence.set callsign (.aprs endpoint) }

/-- `DeliveryRouter.route`: the APRS endpoint that a message for `recipient` goes to. -/
def aprsEndpoint (core : CoreState) (recipient : Str) : Py (Option Str) := do
  let recipient ← validateCallsign recipient "callsign"
  return match core.presence.get? recipient with
    | some (.aprs endpoint) => some endpoint
    | _ => none

/-- Apply a delivery transition of the APRS transport. -/
def setAprsDelivery (stores : Stores) (recipient : Str) (sequence : ℤ) (status : DeliveryStatus)
    (deliveredAt : Option ℤ) : Method PyError CoreState Bool :=
  if stores.messages then
    onTables (setDelivery recipient sequence (str "aprs") status deliveredAt [])
  else pure false

def markAprsPending (stores : Stores) (delivery : Str × ℤ) : Method PyError CoreState Unit := do
  let _ ← setAprsDelivery stores delivery.1 delivery.2 .pending none

def markAprsFailed (stores : Stores) (delivery : Str × ℤ) : Method PyError CoreState Unit := do
  let _ ← setAprsDelivery stores delivery.1 delivery.2 .failed none

/-- Record a delivery. The message is read back for the delivery listeners, which only notify
other clients. -/
def markAprsDelivered (stores : Stores) (delivery : Str × ℤ) : Method PyError CoreState Unit := do
  let core ← get
  let changed ← setAprsDelivery stores delivery.1 delivery.2 .delivered (some core.clock)
  Method.when changed do
    let core ← get
    let _ ← Method.ofExcept (getMessage delivery.1 delivery.2 core.tables)

/-- The state of an APRS delivery. -/
def aprsStatus (core : CoreState) (delivery : Str × ℤ) : Option DeliveryStatus :=
  (core.tables.deliveries.get? (delivery.1, delivery.2.toNat, str "aprs")).map (·.status)

end CoreState

end OpenQSP
