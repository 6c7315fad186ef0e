import OpenQSP.Api.App
import OpenQSP.Api.Ownership

/-!
# Events

The hub sends events over the sockets: a message that was created goes to its author and to the
session that the router chose for its recipient, a delivery to the author, a read cursor to the
peer. An event is scheduled on the loop when it arises, and looks its socket up when it runs, while
connections come and go. It awaits the socket, which may raise; then the socket is removed. Whatever
the order, an event is only sent over a socket of an account that it concerns.

## Main definitions

* `HubEvent`, `HubEmission` — what is sent, and the coroutines that send it
* `EventHub.authoritativeSocket`, `HubEmission.target` — where it is sent
* `EventSystem`, `EventSystem.step` — the coroutines, interleaved with the connections
* `Concerns` — the accounts that an event is about

## Main results

* `HubSystem.Registered.step` — a socket keeps its account and its session
* `EventSystem.Sound.step` — the invariant
* **`events_private`**
-/

namespace OpenQSP

open Api

/-! ### Events -/

/-- What is sent over a socket. -/
inductive HubEvent
  /-- `message.created` -/
  | created (message : APIMessage)
  /-- `message.delivered` -/
  | delivered (id : Str) (deliveredAt : ℤ)
  /-- `message.read` -/
  | read (peer lastReadMessageId : Str)
  deriving DecidableEq

/-- A coroutine of the hub, with its arguments. -/
inductive HubEmission
  /-- `emit_author` -/
  | author (message : APIMessage)
  /-- `emit_recipient` -/
  | recipient (message : APIMessage) (sequence : ℤ) (sessionId : Str)
  /-- `emit_delivery` -/
  | delivery (callsign messageId : Str) (deliveredAt : ℤ)
  /-- `emit_read` -/
  | read (callsign reader lastReadMessageId : Str)
  deriving DecidableEq

namespace HubEmission

/-- The account whose socket is looked up, and removed when it fails. -/
def callsign : HubEmission → Str
  | author message => message.sender
  | recipient message _ _ => message.recipient
  | delivery callsign _ _ => callsign
  | read callsign _ _ => callsign

def event : HubEmission → HubEvent
  | author message => .created message
  | recipient message _ _ => .created message
  | delivery _ messageId deliveredAt => .delivered messageId deliveredAt
  | read _ reader lastReadMessageId => .read reader lastReadMessageId

end HubEmission

/-- `_payload`. Sequences and times of stored messages are not negative. -/
def eventPayload (value : Message) : Py APIMessage := do
  let id ← messageId value.recipient value.sequence.toNat
  return ⟨id, value.author, value.recipient, value.body, value.createdAt.toNat, .stored, none⟩

section Events

variable {Socket : Type} [DecidableEq Socket]

/-- `_authoritative_socket` -/
def EventHub.authoritativeSocket (callsign : Str) (hub : EventHub Socket) :
    Option (Str × Socket) :=
  match hub.presence.get? callsign with
  | some (.websocket sessionId) =>
    match hub.sessions.get? sessionId with
    | some socket => if socket ∈ hub.connected callsign then some (sessionId, socket) else none
    | none => none
  | _ => none

/-- The session and the socket that an event is sent over. A recipient's was chosen before. -/
def HubEmission.target (hub : EventHub Socket) : HubEmission → Option (Str × Socket)
  | .recipient _ _ sessionId => (hub.sessions.get? sessionId).map fun socket => (sessionId, socket)
  | emission => hub.authoritativeSocket emission.callsign

structure EventSystem (Socket : Type) where
  system : HubSystem Socket := {}
  /-- `self.loop` is set. -/
  loop : Bool := false
  /-- The coroutines that have not started. -/
  scheduled : List HubEmission := []
  /-- The coroutines that await `send_json`, over a session and its socket. -/
  sending : List (HubEmission × Str × Socket) := []
  /-- What was sent. No code reads it. -/
  sent : List (Socket × HubEvent) := []

/-- How `send_json` ends. -/
inductive SendOutcome
  /-- It raises one of the exceptions that are caught. -/
  | raised
  /-- It returns. The recorder, when it is called, may record a delivery at this time. -/
  | returned (recorded : Option ℤ)

inductive EventAction (Socket : Type)
  | startup
  /-- Connections and presence. -/
  | hub (action : HubAction Socket)
  /-- `listener` -/
  | listener (value : Message)
  /-- `DeliveryRouter.route`, for a WebSocket -/
  | route (value : Message)
  /-- `delivery_listener` -/
  | deliveryListener (value : StoredMessage) (deliveredAt : ℤ)
  /-- `mark_read` has moved the cursor of `reader`. -/
  | advanced (peer reader : Str) (sequence : ℕ)
  | start (emission : HubEmission)
  | finish (emission : HubEmission) (sessionId : Str) (socket : Socket) (outcome : SendOutcome)

namespace EventSystem

/-- `asyncio.run_coroutine_threadsafe`, if there is a loop. -/
def schedule (emission : HubEmission) (s : EventSystem Socket) : EventSystem Socket :=
  if s.loop then { s with scheduled := s.scheduled ++ [emission] } else s

/-- Schedule what could be built; what raises is only logged. -/
def scheduleOk (emission : Py HubEmission) (s : EventSystem Socket) : EventSystem Socket :=
  match emission with
  | .ok emission => s.schedule emission
  | .error _ => s

/-- `websocket_delivery` -/
def websocketDelivery (value : Message) (sessionId : Str) (s : EventSystem Socket) :
    EventSystem Socket :=
  if sessionId ∈ s.system.hub.sessions.keys then
    s.scheduleOk ((eventPayload value).map fun message =>
      .recipient message value.sequence sessionId)
  else s

/-- `DeliveryRouter.route`: the presence of the recipient selects the session. -/
def route (value : Message) (s : EventSystem Socket) : EventSystem Socket :=
  match validateCallsign value.recipient "callsign" with
  | .error _ => s
  | .ok recipient =>
    match s.system.hub.presence.get? recipient with
    | some (.websocket sessionId) => s.websocketDelivery value sessionId
    | _ => s

/-- A coroutine looks its socket up, and sends. -/
def start (emission : HubEmission) (s : EventSystem Socket) : EventSystem Socket :=
  let s := { s with scheduled := s.scheduled.erase emission }
  match emission.target s.system.hub with
  | none => s
  | some (sessionId, socket) => { s with
      sending := s.sending ++ [(emission, sessionId, socket)]
      sent := s.sent ++ [(socket, emission.event)] }

/-- The rest of a coroutine. -/
def finish (emission : HubEmission) (sessionId : Str) (socket : Socket) (outcome : SendOutcome)
    (s : EventSystem Socket) : EventSystem Socket :=
  let s := { s with sending := s.sending.erase (emission, sessionId, socket) }
  match outcome, emission with
  | .raised, _ => { s with
      system := s.system.onHub (EventHub.remove emission.callsign socket (some sessionId)) }
  | .returned (some deliveredAt), .recipient message _ _ => { s with
      scheduled := s.scheduled ++ [.delivery message.sender message.id deliveredAt] }
  | .returned _, _ => s

/-- One step, if it is possible. -/
def step (s : EventSystem Socket) : EventAction Socket → Option (EventSystem Socket)
  | .startup => some { s with loop := true }
  | .hub action => (s.system.step action).map fun system => { s with system }
  | .listener value => some (s.scheduleOk ((eventPayload value).map .author))
  | .route value => some (s.route value)
  | .deliveryListener value deliveredAt => some (s.scheduleOk
      ((messageId value.recipient value.sequence).map fun id =>
        .delivery value.author id deliveredAt))
  | .advanced peer reader sequence =>
    -- The handler awaits it, on the loop.
    match messageId reader sequence with
    | .ok id => some { s with scheduled := s.scheduled ++ [.read peer reader id] }
    | .error _ => some s
  | .start emission => if emission ∈ s.scheduled then some (s.start emission) else none
  | .finish emission sessionId socket outcome =>
    if (emission, sessionId, socket) ∈ s.sending then
      some (s.finish emission sessionId socket outcome)
    else none

/-- The system after the actions, if they are possible. -/
def after (actions : List (EventAction Socket)) : Option (EventSystem Socket) :=
  actions.foldlM step {}

end EventSystem

/-- The account that an event is about: the author or the recipient of the message, the author of
what was delivered, or the peer whose conversation was read. -/
def Concerns (actions : List (EventAction Socket)) (callsign : Str) : HubEvent → Prop
  | .created message => (callsign = message.sender ∨ callsign = message.recipient) ∧
      ∃ value, (.listener value ∈ actions ∨ .route value ∈ actions) ∧
        eventPayload value = .ok message
  | .delivered id deliveredAt =>
      (∃ value message, .route value ∈ actions ∧ eventPayload value = .ok message ∧
        message.id = id ∧ message.sender = callsign) ∨
      ∃ value, .deliveryListener value deliveredAt ∈ actions ∧ value.author = callsign ∧
        messageId value.recipient value.sequence = .ok id
  | .read reader id => ∃ sequence, .advanced callsign reader sequence ∈ actions ∧
      messageId reader sequence = .ok id

/-! ### Sockets keep their account -/

namespace HubSystem

variable {s s' : HubSystem Socket} {x socket : Socket} {callsign sessionId : Str}

/-- The socket was registered for the account under the session id. -/
def Registered (callsign : Str) (socket : Socket) (sessionId : Str) (s : HubSystem Socket) :
    Prop :=
  ∃ task, s.tasks.get? socket = some task ∧ task.callsign = callsign ∧
    task.phase = .registered sessionId

theorem Live.registered (h : s.Live callsign socket sessionId) :
    s.Registered callsign socket sessionId := by
  obtain ⟨task, hget, hcallsign, hphase, -⟩ := h
  exact ⟨task, hget, hcallsign, hphase⟩

/-- A session is of one socket, and this of one account. -/
theorem Owned.registered_unique {callsign' : Str} (h : s.Owned)
    (hx : s.Registered callsign x sessionId) (hsocket : s.Registered callsign' socket sessionId) :
    x = socket ∧ callsign = callsign' := by
  obtain ⟨task, hget, rfl, hphase⟩ := hx
  obtain ⟨task', hget', rfl, hphase'⟩ := hsocket
  obtain rfl := h.distinct hget hget' hphase hphase'
  obtain rfl := Option.some.inj (hget.symm.trans hget')
  exact ⟨rfl, rfl⟩

/-- A call of `connect` that goes on is not registered. -/
theorem Registered.setPhase (h : s.Registered callsign x sessionId) {task : ConnectTask Socket}
    (hget : s.tasks.get? socket = some task) (hphase : ∀ i, task.phase ≠ .registered i)
    (phase : ConnectPhase Socket) : (s.setPhase socket phase).Registered callsign x sessionId := by
  obtain ⟨task', hget', hcallsign, hphase'⟩ := h
  refine ⟨task', ?_, hcallsign, hphase'⟩
  rw [get?_setPhase, if_neg, hget']
  rintro rfl
  obtain rfl := Option.some.inj (hget.symm.trans hget')
  exact hphase _ hphase'

theorem Registered.supersede (h : s.Registered callsign x sessionId) (old : Socket) :
    (s.supersede old).Registered callsign x sessionId := by
  obtain ⟨task, hget, hcallsign, hphase⟩ := h
  by_cases hx : x = old
  · refine ⟨{ task with superseded := true }, ?_, hcallsign, hphase⟩
    rw [get?_supersede, if_pos hx, ← hx, hget]
    rfl
  · refine ⟨task, ?_, hcallsign, hphase⟩
    rw [get?_supersede, if_neg hx, hget]

theorem Registered.proceed {callsign' sessionId' : Str} (h : s.Registered callsign x sessionId)
    {task : ConnectTask Socket} (hget : s.tasks.get? socket = some task)
    (hphase : ∀ i, task.phase ≠ .registered i) (olds : List Socket) :
    (s.proceed callsign' socket sessionId' olds).Registered callsign x sessionId := by
  cases olds with
  | cons old rest =>
    have hsuperseded : ∃ task', (s.supersede old).tasks.get? socket = some task' ∧
        ∀ i, task'.phase ≠ .registered i := by
      rw [get?_supersede]
      split
      · next hold =>
        rw [← hold, hget]
        exact ⟨_, rfl, hphase⟩
      · exact ⟨task, hget, hphase⟩
    obtain ⟨task', hget', hphase'⟩ := hsuperseded
    have hold := (h.supersede old).setPhase hget' hphase' (.closing old rest)
    exact hold
  | nil =>
    have hnew := h.setPhase hget hphase
    rw [HubSystem.proceed]
    split
    · exact hnew _
    · exact hnew _

/-- A socket keeps its account and its session. -/
theorem Registered.step (h : s.Registered callsign x sessionId) {action : HubAction Socket}
    (hstep : s.step action = some s') : s'.Registered callsign x sessionId := by
  cases action with
  | connect callsign' socket =>
    simp only [HubSystem.step, Option.ite_none_left_eq_some, Option.some.injEq] at hstep
    obtain ⟨hsocket, rfl⟩ := hstep
    obtain ⟨task, hget, hcallsign, hphase⟩ := h
    refine ⟨task, ?_, hcallsign, hphase⟩
    show (s.tasks.set socket _).get? x = _
    rw [OrderedDict.get?_set_of_ne, hget]
    rintro rfl
    exact hsocket (OrderedDict.mem_keys_iff.mpr ⟨task, hget⟩)
  | accepted socket =>
    obtain ⟨task, hget, hstep⟩ := Option.bind_eq_some_iff.mp hstep
    simp only [Option.ite_none_right_eq_some, Option.some.injEq] at hstep
    obtain ⟨hphase, rfl⟩ := hstep
    exact h.setPhase hget (by simp [hphase]) _
  | acquire socket previous sessionId' =>
    obtain ⟨task, hget, hstep⟩ := Option.bind_eq_some_iff.mp hstep
    simp only [Option.ite_none_right_eq_some, Option.some.injEq] at hstep
    obtain ⟨⟨hphase, -, -, -, -⟩, rfl⟩ := hstep
    exact Registered.proceed (s := { s with
      lock := some socket
      hub := { s.hub with connections := s.hub.connections.erase task.callsign } }) h hget
      (by simp [hphase]) previous
  | closed socket sessionId' =>
    obtain ⟨task, hget, hstep⟩ := Option.bind_eq_some_iff.mp hstep
    cases hphase : task.phase with
    | closing old rest =>
      simp only [hphase, Option.ite_none_right_eq_some, Option.some.injEq] at hstep
      obtain ⟨-, rfl⟩ := hstep
      exact h.proceed hget (by simp [hphase]) rest
    | _ => simp [hphase] at hstep
  | remove socket known =>
    obtain ⟨task, hget, hstep⟩ := Option.bind_eq_some_iff.mp hstep
    cases known with
    | false =>
      obtain rfl := Option.some.inj hstep
      exact h
    | true =>
      cases hphase : task.phase with
      | registered i =>
        simp only [hphase, Option.some.injEq] at hstep
        subst hstep
        exact h
      | _ => simp [hphase] at hstep
  | recordInternetActivity callsign' =>
    obtain rfl := Option.some.inj hstep
    exact h
  | setAprs callsign' endpoint =>
    obtain rfl := Option.some.inj hstep
    exact h
  | clearAprs callsign' endpoint =>
    obtain rfl := Option.some.inj hstep
    exact h
  | clear callsign' =>
    obtain rfl := Option.some.inj hstep
    exact h

/-! ### Routes -/

/-- A route over a WebSocket names a session of its account. -/
def Routed (s : HubSystem Socket) : Prop :=
  ∀ callsign sessionId, s.hub.presence.get? callsign = some (.websocket sessionId) →
    ∃ socket, s.Registered callsign socket sessionId

theorem websocket_of_foreign {users users' : PresenceRegistry}
    (h : PresenceRegistry.Foreign users users')
    (hroute : users'.get? callsign = some (.websocket sessionId)) :
    users.get? callsign = some (.websocket sessionId) := by
  rcases h callsign with hsame | hnone | ⟨-, endpoint, haprs⟩
  · rw [← hsame, hroute]
  · cases hroute.symm.trans hnone
  · cases hroute.symm.trans haprs

theorem remove_foreign (hub : EventHub Socket) (known : Option Str) :
    PresenceRegistry.Foreign hub.presence
      ((EventHub.remove callsign socket known).run hub).2.presence := by
  rw [remove_run]
  cases known.or (hub.sessionOf socket) with
  | none => exact PresenceRegistry.foreign_refl hub.presence
  | some i => exact clearWebsocket_foreign callsign i hub.presence

/-- The route that `connect` makes is to its own session. -/
theorem proceed_route {sessionId' : Str} {task : ConnectTask Socket}
    (hget : s.tasks.get? socket = some task) (hid : sessionId' ≠ []) (olds : List Socket)
    (hroute : (s.proceed task.callsign socket sessionId' olds).hub.presence.get? callsign =
      some (.websocket sessionId)) :
    s.hub.presence.get? callsign = some (.websocket sessionId) ∨
      (s.proceed task.callsign socket sessionId' olds).Registered callsign socket sessionId := by
  cases olds with
  | cons old rest => exact .inl hroute
  | nil =>
    rw [HubSystem.proceed] at hroute ⊢
    rcases PresenceRegistry.validateCallsign_cases task.callsign with haccepts | ⟨e, herror⟩
    · rw [register_run haccepts hid] at hroute ⊢
      replace hroute : (s.hub.presence.set task.callsign (.websocket sessionId')).get? callsign =
        some (.websocket sessionId) := hroute
      rw [OrderedDict.get?_set] at hroute
      split at hroute
      · next hcallsign =>
        obtain rfl := ActiveTransport.websocket.inj (Option.some.inj hroute)
        refine .inr ⟨{ task with phase := .registered sessionId' }, ?_, hcallsign.symm, rfl⟩
        dsimp only
        rw [get?_setPhase, if_pos rfl, hget]
        rfl
      · exact .inl hroute
    · rw [register_run_of_error herror] at hroute
      exact .inl hroute

theorem Routed.step (h : s.Routed) (howned : s.Owned) {action : HubAction Socket}
    (hstep : s.step action = some s') : s'.Routed := by
  -- What was routed before is still registered.
  suffices hroutes : ∀ callsign sessionId,
      s'.hub.presence.get? callsign = some (.websocket sessionId) →
      s.hub.presence.get? callsign = some (.websocket sessionId) ∨
        ∃ socket, s'.Registered callsign socket sessionId by
    intro callsign sessionId hroute
    rcases hroutes callsign sessionId hroute with hold | hnew
    · obtain ⟨socket, hregistered⟩ := h callsign sessionId hold
      exact ⟨socket, hregistered.step hstep⟩
    · exact hnew
  intro callsign sessionId hroute
  cases action with
  | connect callsign' socket =>
    simp only [HubSystem.step, Option.ite_none_left_eq_some, Option.some.injEq] at hstep
    obtain ⟨-, rfl⟩ := hstep
    exact .inl hroute
  | accepted socket =>
    obtain ⟨task, hget, hstep⟩ := Option.bind_eq_some_iff.mp hstep
    simp only [Option.ite_none_right_eq_some, Option.some.injEq] at hstep
    obtain ⟨-, rfl⟩ := hstep
    exact .inl hroute
  | acquire socket previous sessionId' =>
    obtain ⟨task, hget, hstep⟩ := Option.bind_eq_some_iff.mp hstep
    simp only [Option.ite_none_right_eq_some, Option.some.injEq] at hstep
    obtain ⟨⟨-, -, -, -, hid⟩, rfl⟩ := hstep
    exact (proceed_route (s := { s with
      lock := some socket
      hub := { s.hub with connections := s.hub.connections.erase task.callsign } }) hget hid.1
      previous hroute).imp_right fun hregistered => ⟨socket, hregistered⟩
  | closed socket sessionId' =>
    obtain ⟨task, hget, hstep⟩ := Option.bind_eq_some_iff.mp hstep
    cases hphase : task.phase with
    | closing old rest =>
      simp only [hphase, Option.ite_none_right_eq_some, Option.some.injEq] at hstep
      obtain ⟨hid, rfl⟩ := hstep
      exact (proceed_route hget hid.1 rest hroute).imp_right fun hregistered =>
        ⟨socket, hregistered⟩
    | _ => simp [hphase] at hstep
  | remove socket known =>
    obtain ⟨task, hget, hstep⟩ := Option.bind_eq_some_iff.mp hstep
    cases known with
    | false =>
      obtain rfl := Option.some.inj hstep
      exact .inl (websocket_of_foreign (remove_foreign s.hub none) hroute)
    | true =>
      cases hphase : task.phase with
      | registered i =>
        simp only [hphase, Option.some.injEq] at hstep
        subst hstep
        exact .inl (websocket_of_foreign (remove_foreign s.hub (some i)) hroute)
      | _ => simp [hphase] at hstep
  | recordInternetActivity callsign' =>
    obtain rfl := Option.some.inj hstep
    rw [onHub, EventHub.recordInternetActivity, Method.run_get_bind] at hroute
    cases hfind : s.hub.sessions.entries.find? fun e => e.2 ∈ s.hub.connected callsign' with
    | none =>
      rw [hfind] at hroute
      simp only [Method.run_bind_pure] at hroute
      exact .inl (websocket_of_foreign
        (PresenceRegistry.clear_foreign callsign' s.hub.presence) hroute)
    | some e =>
      have hentry : s.hub.sessions.get? e.1 = some e.2 :=
        OrderedDict.get?_eq_some_iff.mpr (List.mem_of_find?_eq_some hfind)
      have hconnected : e.2 ∈ s.hub.connected callsign' := by
        simpa using List.find?_some hfind
      have hregistered := (howned.live hentry hconnected).registered
      obtain ⟨task, hget, rfl, hphase⟩ := hregistered
      obtain ⟨haccepts, hid⟩ := howned.accepts hget hphase
      rw [hfind] at hroute
      replace hroute : ((PresenceRegistry.setWebsocket task.callsign e.1).run
        s.hub.presence).2.get? callsign = some (.websocket sessionId) := hroute
      rw [PresenceRegistry.setWebsocket_run haccepts hid, OrderedDict.get?_set] at hroute
      split at hroute
      · next hcallsign =>
        obtain rfl := ActiveTransport.websocket.inj (Option.some.inj hroute)
        exact .inr ⟨e.2, task, hget, hcallsign.symm, hphase⟩
      · exact .inl hroute
  | setAprs callsign' endpoint =>
    obtain rfl := Option.some.inj hstep
    exact .inl (websocket_of_foreign
      (PresenceRegistry.setAprs_foreign callsign' endpoint s.hub.presence) hroute)
  | clearAprs callsign' endpoint =>
    obtain rfl := Option.some.inj hstep
    exact .inl (websocket_of_foreign
      (PresenceRegistry.clearAprs_foreign callsign' endpoint s.hub.presence) hroute)
  | clear callsign' =>
    obtain rfl := Option.some.inj hstep
    exact .inl (websocket_of_foreign
      (PresenceRegistry.clear_foreign callsign' s.hub.presence) hroute)

end HubSystem

/-! ### The invariant -/

omit [DecidableEq Socket] in
theorem Concerns.mono {actions actions' : List (EventAction Socket)} {callsign : Str}
    {event : HubEvent} (h : Concerns actions callsign event) (hsubset : actions ⊆ actions') :
    Concerns actions' callsign event := by
  cases event with
  | created message =>
    obtain ⟨hnames, value, hvalue, hpayload⟩ := h
    exact ⟨hnames, value, hvalue.imp (fun h => hsubset h) (fun h => hsubset h), hpayload⟩
  | delivered id deliveredAt =>
    rcases h with ⟨value, message, hvalue, h⟩ | ⟨value, hvalue, h⟩
    · exact .inl ⟨value, message, hsubset hvalue, h⟩
    · exact .inr ⟨value, hsubset hvalue, h⟩
  | read reader id =>
    obtain ⟨sequence, hadvanced, hid⟩ := h
    exact ⟨sequence, hsubset hadvanced, hid⟩

/-- A coroutine is for an account that its event concerns. That for a recipient has the session of
its account. -/
structure HubEmission.Sound (actions : List (EventAction Socket)) (system : HubSystem Socket)
    (emission : HubEmission) : Prop where
  concerns : Concerns actions emission.callsign emission.event
  routed : ∀ message sequence sessionId, emission = .recipient message sequence sessionId →
    (∃ socket, system.Registered message.recipient socket sessionId) ∧
      ∃ value, .route value ∈ actions ∧ eventPayload value = .ok message

theorem HubEmission.Sound.mono {actions actions' : List (EventAction Socket)}
    {system system' : HubSystem Socket} {emission : HubEmission}
    (h : emission.Sound actions system) (hsubset : actions ⊆ actions')
    (hkeeps : ∀ callsign socket sessionId, system.Registered callsign socket sessionId →
      system'.Registered callsign socket sessionId) : emission.Sound actions' system' where
  concerns := h.concerns.mono hsubset
  routed message sequence sessionId hemission := by
    obtain ⟨⟨socket, hregistered⟩, value, hvalue, hpayload⟩ :=
      h.routed message sequence sessionId hemission
    exact ⟨⟨socket, hkeeps _ _ _ hregistered⟩, value, hsubset hvalue, hpayload⟩

/-- An event is sent over a socket of its account. -/
theorem HubEmission.Sound.target {actions : List (EventAction Socket)} {system : HubSystem Socket}
    {emission : HubEmission} (h : emission.Sound actions system) (howned : system.Owned)
    {sessionId : Str} {socket : Socket}
    (htarget : emission.target system.hub = some (sessionId, socket)) :
    system.Registered emission.callsign socket sessionId := by
  have hauthoritative : system.hub.authoritativeSocket emission.callsign =
      some (sessionId, socket) → system.Registered emission.callsign socket sessionId := by
    intro htarget
    rw [EventHub.authoritativeSocket] at htarget
    split at htarget
    · split at htarget
      · next hsession =>
        simp only [Option.ite_none_right_eq_some, Option.some.injEq, Prod.mk.injEq] at htarget
        obtain ⟨hconnected, rfl, rfl⟩ := htarget
        exact (howned.live hsession hconnected).registered
      · cases htarget
    · cases htarget
  cases emission with
  | recipient message sequence sessionId' =>
    obtain ⟨x, hsession, hx⟩ := Option.map_eq_some_iff.mp htarget
    obtain ⟨rfl, rfl⟩ := Prod.mk.inj hx
    obtain ⟨callsign, hlive, -⟩ := howned.owner hsession
    obtain ⟨⟨y, hregistered⟩, -⟩ := h.routed message sequence sessionId' rfl
    obtain ⟨rfl, rfl⟩ := howned.registered_unique hregistered hlive.registered
    exact hregistered
  | author message => exact hauthoritative htarget
  | delivery callsign messageId deliveredAt => exact hauthoritative htarget
  | read callsign reader lastReadMessageId => exact hauthoritative htarget

namespace EventSystem

variable {actions actions' : List (EventAction Socket)} {s s' : EventSystem Socket}
  {emission : HubEmission}

structure Sound (actions : List (EventAction Socket)) (s : EventSystem Socket) : Prop where
  owned : s.system.Owned
  routed : s.system.Routed
  scheduled : ∀ emission ∈ s.scheduled, emission.Sound actions s.system
  sending : ∀ e ∈ s.sending, e.1.Sound actions s.system ∧
    s.system.Registered e.1.callsign e.2.2 e.2.1
  sent : ∀ e ∈ s.sent, ∃ callsign sessionId, s.system.Registered callsign e.1 sessionId ∧
    Concerns actions callsign e.2

theorem Sound.mono (h : s.Sound actions) (hsubset : actions ⊆ actions') : s.Sound actions' where
  owned := h.owned
  routed := h.routed
  scheduled emission he := (h.scheduled emission he).mono hsubset fun _ _ _ => id
  sending e he := ⟨(h.sending e he).1.mono hsubset fun _ _ _ => id, (h.sending e he).2⟩
  sent e he := by
    obtain ⟨callsign, sessionId, hregistered, hconcerns⟩ := h.sent e he
    exact ⟨callsign, sessionId, hregistered, hconcerns.mono hsubset⟩

/-- Connections and presence change. -/
theorem Sound.onSystem (h : s.Sound actions) {action : HubAction Socket}
    {system : HubSystem Socket} (hstep : s.system.step action = some system) :
    ({ s with system } : EventSystem Socket).Sound actions where
  owned := h.owned.step hstep
  routed := h.routed.step h.owned hstep
  scheduled emission he :=
    (h.scheduled emission he).mono (List.Subset.refl _) fun _ _ _ hx => hx.step hstep
  sending e he := ⟨(h.sending e he).1.mono (List.Subset.refl _) fun _ _ _ hx => hx.step hstep,
    (h.sending e he).2.step hstep⟩
  sent e he := by
    obtain ⟨callsign, sessionId, hregistered, hconcerns⟩ := h.sent e he
    exact ⟨callsign, sessionId, hregistered.step hstep, hconcerns⟩

/-- A coroutine is added. -/
theorem Sound.add (h : s.Sound actions) (hemission : emission.Sound actions s.system) :
    ({ s with scheduled := s.scheduled ++ [emission] } : EventSystem Socket).Sound actions :=
  { h with
    scheduled := by
      intro e he
      rcases List.mem_append.mp he with he | he
      · exact h.scheduled e he
      · obtain rfl := List.mem_singleton.mp he
        exact hemission }

theorem Sound.scheduleOk (h : s.Sound actions) {result : Py HubEmission}
    (hemission : ∀ emission, result = .ok emission → emission.Sound actions s.system) :
    (s.scheduleOk result).Sound actions := by
  cases result with
  | error e => exact h
  | ok emission =>
    show (s.schedule emission).Sound actions
    rw [EventSystem.schedule]
    split
    · exact h.add (hemission emission rfl)
    · exact h

theorem eventPayload_recipient {value : Message} {message : APIMessage}
    (h : eventPayload value = .ok message) : message.recipient = value.recipient := by
  obtain ⟨id, -, h⟩ := Py.bind_eq_ok.mp h
  obtain rfl := Except.ok.inj h
  rfl

/-- The router chooses a session of the recipient. -/
theorem Sound.route (h : s.Sound actions) {value : Message} (hvalue : .route value ∈ actions) :
    (s.route value).Sound actions := by
  rw [EventSystem.route]
  rcases PresenceRegistry.validateCallsign_cases value.recipient with haccepts | ⟨e, herror⟩
  · rw [haccepts]
    dsimp only
    split
    · next sessionId hroute =>
      rw [websocketDelivery]
      split
      · refine h.scheduleOk fun emission hemission => ?_
        obtain ⟨message, hpayload, rfl⟩ := Py.map_eq_ok.mp hemission
        obtain ⟨socket, hregistered⟩ := h.routed value.recipient sessionId hroute
        refine ⟨⟨.inr rfl, value, .inr hvalue, hpayload⟩, ?_⟩
        rintro _ _ _ ⟨⟩
        rw [eventPayload_recipient hpayload]
        exact ⟨⟨socket, hregistered⟩, value, hvalue, hpayload⟩
      · exact h
    · exact h
  · rw [herror]
    exact h

theorem Sound.start (h : s.Sound actions) (hemission : emission ∈ s.scheduled) :
    (s.start emission).Sound actions := by
  have hsound := h.scheduled emission hemission
  have herased : ({ s with scheduled := s.scheduled.erase emission } :
      EventSystem Socket).Sound actions :=
    { h with scheduled := fun e he => h.scheduled e (List.mem_of_mem_erase he) }
  rw [EventSystem.start]
  dsimp only
  split
  · exact herased
  · next sessionId socket htarget =>
    have hregistered := hsound.target h.owned htarget
    exact { herased with
      sending := by
        intro e he
        rcases List.mem_append.mp he with he | he
        · exact h.sending e he
        · obtain rfl := List.mem_singleton.mp he
          exact ⟨hsound, hregistered⟩
      sent := by
        intro e he
        rcases List.mem_append.mp he with he | he
        · exact h.sent e he
        · obtain rfl := List.mem_singleton.mp he
          exact ⟨emission.callsign, sessionId, hregistered, hsound.concerns⟩ }

theorem Sound.finish (h : s.Sound actions) {sessionId : Str} {socket : Socket}
    (hsending : (emission, sessionId, socket) ∈ s.sending) (outcome : SendOutcome) :
    (s.finish emission sessionId socket outcome).Sound actions := by
  obtain ⟨hsound, hregistered⟩ := h.sending _ hsending
  have herased : ({ s with sending := s.sending.erase (emission, sessionId, socket) } :
      EventSystem Socket).Sound actions :=
    { h with sending := fun e he => h.sending e (List.mem_of_mem_erase he) }
  cases outcome with
  | raised =>
    -- The socket is still the one of its account, so `remove` is a step of the connections.
    obtain ⟨task, hget, hcallsign, hphase⟩ := hregistered
    have hremove : s.system.step (.remove socket true) = some (s.system.onHub
        (EventHub.remove emission.callsign socket (some sessionId))) := by
      rw [HubSystem.step, hget]
      simp only [Option.bind_some, Option.bind_eq_bind, hphase, hcallsign]
    exact herased.onSystem hremove
  | returned recorded =>
    cases recorded with
    | none => exact herased
    | some deliveredAt =>
      cases emission with
      | recipient message sequence sessionId' =>
        refine herased.add ⟨?_, by rintro _ _ _ ⟨⟩⟩
        obtain ⟨-, value, hvalue, hpayload⟩ := hsound.routed message sequence sessionId' rfl
        exact .inl ⟨value, message, hvalue, hpayload, rfl, rfl⟩
      | author message => exact herased
      | delivery callsign messageId deliveredAt' => exact herased
      | read callsign reader lastReadMessageId => exact herased

/-- The lemma about one step. -/
theorem Sound.step (h : s.Sound actions) {action : EventAction Socket}
    (hstep : s.step action = some s') : s'.Sound (actions ++ [action]) := by
  have hsound : s.Sound (actions ++ [action]) := h.mono (List.subset_append_left _ _)
  have hmem : action ∈ actions ++ [action] := by simp
  cases action with
  | startup =>
    obtain rfl := Option.some.inj hstep
    exact { hsound with }
  | hub action =>
    obtain ⟨system, hsystem, rfl⟩ := Option.map_eq_some_iff.mp hstep
    exact hsound.onSystem hsystem
  | listener value =>
    obtain rfl := Option.some.inj hstep
    refine hsound.scheduleOk fun emission hemission => ?_
    obtain ⟨message, hpayload, rfl⟩ := Py.map_eq_ok.mp hemission
    exact ⟨⟨.inl rfl, value, .inl hmem, hpayload⟩, by rintro _ _ _ ⟨⟩⟩
  | route value =>
    obtain rfl := Option.some.inj hstep
    exact hsound.route hmem
  | deliveryListener value deliveredAt =>
    obtain rfl := Option.some.inj hstep
    refine hsound.scheduleOk fun emission hemission => ?_
    obtain ⟨id, hid, rfl⟩ := Py.map_eq_ok.mp hemission
    exact ⟨.inr ⟨value, hmem, rfl, hid⟩, by rintro _ _ _ ⟨⟩⟩
  | advanced peer reader sequence =>
    rw [EventSystem.step] at hstep
    split at hstep
    · next id hid =>
      obtain rfl := Option.some.inj hstep
      exact hsound.add ⟨⟨sequence, hmem, hid⟩, by rintro _ _ _ ⟨⟩⟩
    · obtain rfl := Option.some.inj hstep
      exact hsound
  | start emission =>
    simp only [EventSystem.step, Option.ite_none_right_eq_some, Option.some.injEq] at hstep
    obtain ⟨hemission, rfl⟩ := hstep
    exact hsound.start hemission
  | finish emission sessionId socket outcome =>
    simp only [EventSystem.step, Option.ite_none_right_eq_some, Option.some.injEq] at hstep
    obtain ⟨hsending, rfl⟩ := hstep
    exact hsound.finish hsending outcome

theorem sound_start : ({} : EventSystem Socket).Sound [] where
  owned := HubSystem.Owned.start
  routed _ _ h := by simp at h
  scheduled _ h := by cases h
  sending _ h := by cases h
  sent _ h := by cases h

theorem after_sound {actions : List (EventAction Socket)} : ∀ {s : EventSystem Socket},
    after actions = some s → s.Sound actions := by
  induction actions using List.reverseRecOn with
  | nil =>
    intro s h
    obtain rfl := Option.some.inj h
    exact sound_start
  | append_singleton actions action ih =>
    intro s h
    rw [after, List.foldlM_append] at h
    obtain ⟨before, hbefore, hstep⟩ := Option.bind_eq_some_iff.mp h
    simp only [List.foldlM_cons, List.foldlM_nil, bind_pure] at hstep
    exact (ih hbefore).step hstep

end EventSystem

/-- **Events are private.** Whatever the order in which connections come and go, messages,
deliveries and read cursors arise, and their coroutines run: every event that was sent was sent over
a socket that had been registered for an account that the event concerns. -/
theorem events_private {actions : List (EventAction Socket)} {s : EventSystem Socket}
    (h : EventSystem.after actions = some s) {socket : Socket} {event : HubEvent}
    (hsent : (socket, event) ∈ s.sent) :
    ∃ task sessionId, s.system.tasks.get? socket = some task ∧
      task.phase = .registered sessionId ∧ Concerns actions task.callsign event := by
  obtain ⟨_, sessionId, ⟨task, hget, rfl, hphase⟩, hconcerns⟩ :=
    (EventSystem.after_sound h).sent _ hsent
  exact ⟨task, sessionId, hget, hphase, hconcerns⟩

end Events

/-- A message to an account that has a socket. -/
def sampleNews : Message :=
  ⟨1, 1, 1000, str "K1XYZ", str "EA1ABC", str "73"⟩

def sampleNewsPayload : APIMessage :=
  ⟨str "RUExQUJDOjE", str "K1XYZ", str "EA1ABC", str "73", 1000, .stored, none⟩

/-- It is routed to the socket, and sent. -/
def sampleNewsActions : List (EventAction ℕ) :=
  [.startup, .hub (.connect (str "EA1ABC") 1), .hub (.accepted 1), .hub (.acquire 1 [] (str "a")),
    .route sampleNews, .start (.recipient sampleNewsPayload 1 (str "a"))]

theorem events_private_sampleNews : ∃ s task sessionId,
    EventSystem.after sampleNewsActions = some s ∧ s.system.tasks.get? 1 = some task ∧
      task.phase = .registered sessionId ∧
      Concerns sampleNewsActions task.callsign (.created sampleNewsPayload) := by
  have hsent : (EventSystem.after sampleNewsActions).map EventSystem.sent =
      some [(1, .created sampleNewsPayload)] := by decide +kernel
  obtain ⟨s, hs, hlist⟩ := Option.map_eq_some_iff.mp hsent
  have hmem : (1, .created sampleNewsPayload) ∈ s.sent := hlist ▸ List.mem_singleton_self _
  obtain ⟨task, sessionId, hget, hphase, hconcerns⟩ := events_private hs hmem
  exact ⟨s, task, sessionId, hs, hget, hphase, hconcerns⟩

end OpenQSP
