import Mathlib.Data.Finset.Card
import OpenQSP.Api.EventHub

/-!
# Ownership of WebSocket connections

An account has at most one socket, and that one has exactly one session id; a presence that names a
session names one that is there. Between its first removal and its registration a call of `connect`
leaves the account without a socket, and the presence may still name the session that was taken out;
only one call can be there, because it holds the lock.

## Main definitions

* `HubSystem.Live` — the socket is registered and has not been replaced
* `HubSystem.Owned` — the invariant

## Main results

* `HubSystem.Owned.step`, `HubSystem.Reachable.owned`
* **`websocket_ownership`**
-/

namespace OpenQSP

variable {Socket : Type} [DecidableEq Socket]

/-! ### Methods of the registry -/

namespace PresenceRegistry

open Method

/-- The callsign is one that the registry accepts. -/
def Accepts (callsign : Str) : Prop := validateCallsign callsign "callsign" = .ok callsign

/-- What the other transports do to the registry: they leave, remove or replace a route. -/
def Foreign (users users' : PresenceRegistry) : Prop :=
  ∀ callsign, users'.get? callsign = users.get? callsign ∨ users'.get? callsign = none ∨
    (Accepts callsign ∧ ∃ endpoint, users'.get? callsign = some (.aprs endpoint))

theorem validateCallsign_cases (callsign : Str) :
    Accepts callsign ∨ ∃ e, validateCallsign callsign "callsign" = .error e := by
  cases h : callsignBytes callsign "callsign" with
  | error e => exact .inr ⟨e, by rw [validateCallsign, h]; rfl⟩
  | ok data => exact .inl (by rw [Accepts, validateCallsign, h]; rfl)

theorem setWebsocket_run {callsign sessionId : Str} (h : Accepts callsign) (hid : sessionId ≠ [])
    (users : PresenceRegistry) : (setWebsocket callsign sessionId).run users =
      (.ok (), users.set callsign (.websocket sessionId)) := by
  rw [setWebsocket, h, run_ofExcept_ok_bind, raiseIf_of_not hid]
  rfl

theorem foreign_erase (users : PresenceRegistry) (callsign : Str) :
    Foreign users (users.erase callsign) := by
  intro callsign'
  rw [OrderedDict.get?_erase]
  split
  · exact .inr (.inl rfl)
  · exact .inl rfl

theorem foreign_refl (users : PresenceRegistry) : Foreign users users := fun _ => .inl rfl

theorem setAprs_foreign (callsign endpoint : Str) (users : PresenceRegistry) :
    Foreign users ((setAprs callsign endpoint).run users).2 := by
  rcases validateCallsign_cases callsign with h | ⟨e, h⟩
  · rw [setAprs, h, run_ofExcept_ok_bind]
    by_cases hendpoint : endpoint = []
    · rw [raiseIf, if_pos hendpoint]
      exact foreign_refl users
    · rw [raiseIf_of_not hendpoint]
      intro callsign'
      show (users.set callsign _).get? callsign' = _ ∨ _
      by_cases hcallsign : callsign' = callsign
      · rw [hcallsign]
        exact .inr (.inr ⟨h, endpoint, OrderedDict.get?_set_self _ _ _⟩)
      · exact .inl (OrderedDict.get?_set_of_ne hcallsign)
  · rw [setAprs, h]
    exact foreign_refl users

theorem clear_run (callsign : Str) (users : PresenceRegistry) :
    (Accepts callsign ∧ ((clear callsign).run users).2 = users.erase callsign) ∨
    (¬Accepts callsign ∧ ((clear callsign).run users).2 = users) := by
  rcases validateCallsign_cases callsign with h | ⟨e, h⟩
  · refine .inl ⟨h, ?_⟩
    rw [clear, h]
    rfl
  · refine .inr ⟨fun hok => ?_, ?_⟩
    · rw [Accepts, h] at hok
      cases hok
    · rw [clear, h]
      rfl

theorem clear_foreign (callsign : Str) (users : PresenceRegistry) :
    Foreign users ((clear callsign).run users).2 := by
  rcases clear_run callsign users with ⟨-, h⟩ | ⟨-, h⟩
  · rw [h]
    exact foreign_erase users callsign
  · rw [h]
    exact foreign_refl users

/-- A route that is cleared is gone, and a route that is kept is not the one that was to be
cleared. -/
theorem clearRoute_run (callsign : Str) (route : ActiveTransport) (users : PresenceRegistry) :
    (users.get? callsign = some route ∧
      ((clearRoute callsign route).run users).2 = users.erase callsign) ∨
    ((users.get? callsign ≠ some route ∨ ¬Accepts callsign) ∧
      ((clearRoute callsign route).run users).2 = users) := by
  rcases validateCallsign_cases callsign with h | ⟨e, h⟩
  · rw [clearRoute, h, run_ofExcept_ok_bind, run_get_bind]
    split
    · next hroute => exact .inl ⟨hroute, rfl⟩
    · next hroute => exact .inr ⟨.inl hroute, rfl⟩
  · refine .inr ⟨.inr fun hok => ?_, ?_⟩
    · rw [Accepts, h] at hok
      cases hok
    · rw [clearRoute, h]
      rfl

theorem clearAprs_foreign (callsign endpoint : Str) (users : PresenceRegistry) :
    Foreign users ((clearAprs callsign endpoint).run users).2 := by
  rw [clearAprs]
  rcases clearRoute_run callsign (.aprs endpoint) users with ⟨-, h⟩ | ⟨-, h⟩
  · rw [h]
    exact foreign_erase users callsign
  · rw [h]
    exact foreign_refl users

end PresenceRegistry

open PresenceRegistry Method

/-! ### The invariant -/

namespace HubSystem

/-- The socket is registered for the account under the session id and has not been replaced. -/
def Live (callsign : Str) (socket : Socket) (sessionId : Str) (s : HubSystem Socket) : Prop :=
  ∃ task, s.tasks.get? socket = some task ∧ task.callsign = callsign ∧
    task.phase = .registered sessionId ∧ task.superseded = false

/-- A call of `connect` is between its first removal and its registration. -/
def Closing (callsign : Str) (socket : Socket) (s : HubSystem Socket) : Prop :=
  ∃ task old rest, s.tasks.get? socket = some task ∧ task.callsign = callsign ∧
    task.phase = .closing old rest

structure Owned (s : HubSystem Socket) : Prop where
  one : ∀ callsign, (s.hub.connected callsign).card ≤ 1
  /-- Every socket of an account has a session. -/
  session : ∀ {callsign socket}, socket ∈ s.hub.connected callsign → ∃ sessionId,
    s.Live callsign socket sessionId ∧ s.hub.sessions.get? sessionId = some socket
  /-- Every session is of a socket of an account. -/
  owner : ∀ {sessionId socket}, s.hub.sessions.get? sessionId = some socket → ∃ callsign,
    s.Live callsign socket sessionId ∧ socket ∈ s.hub.connected callsign
  /-- A session id was given to one socket only. -/
  distinct : ∀ {socket socket' task task' sessionId}, s.tasks.get? socket = some task →
    s.tasks.get? socket' = some task' → task.phase = .registered sessionId →
    task'.phase = .registered sessionId → socket = socket'
  accepts : ∀ {socket task sessionId}, s.tasks.get? socket = some task →
    task.phase = .registered sessionId → Accepts task.callsign ∧ sessionId ≠ []
  /-- Only the call that holds the lock is replacing, and it has only one socket to close. -/
  closing : ∀ {socket task old rest}, s.tasks.get? socket = some task →
    task.phase = .closing old rest → s.lock = some socket ∧ rest = [] ∧
      s.hub.connected task.callsign = ∅ ∧ Accepts task.callsign
  presence : ∀ {callsign sessionId},
    s.hub.presence.get? callsign = some (.websocket sessionId) →
    (∃ socket ∈ s.hub.connected callsign, s.hub.sessions.get? sessionId = some socket) ∨
      s.Replacing callsign
  present : ∀ {callsign route}, s.hub.presence.get? callsign = some route → Accepts callsign
  /-- Only a registered socket is closed by a later call. -/
  superseded : ∀ {socket task}, s.tasks.get? socket = some task → task.superseded = true →
    ∃ sessionId, task.phase = .registered sessionId

/-- The task has registered or is replacing. -/
def Matters (phase : ConnectPhase Socket) : Prop :=
  (∃ sessionId, phase = .registered sessionId) ∨ ∃ old rest, phase = .closing old rest

section Steps

variable {s s' : HubSystem Socket} {socket : Socket} {callsign sessionId : Str}

theorem Live.unique {callsign' sessionId' : Str} (h : s.Live callsign socket sessionId)
    (h' : s.Live callsign' socket sessionId') : callsign = callsign' ∧ sessionId = sessionId' := by
  obtain ⟨task, hget, rfl, hphase, -⟩ := h
  obtain ⟨task', hget', rfl, hphase', -⟩ := h'
  obtain rfl : task = task' := Option.some.inj (hget.symm.trans hget')
  exact ⟨rfl, ConnectPhase.registered.inj (hphase.symm.trans hphase')⟩

theorem Owned.eq_of_connected {x y : Socket} (h : s.Owned) (hx : x ∈ s.hub.connected callsign)
    (hy : y ∈ s.hub.connected callsign) : x = y :=
  Finset.card_le_one.mp (h.one callsign) x hx y hy

theorem Owned.live (h : s.Owned) (hsession : s.hub.sessions.get? sessionId = some socket)
    (hconnected : socket ∈ s.hub.connected callsign) : s.Live callsign socket sessionId := by
  obtain ⟨c, hlive, -⟩ := h.owner hsession
  obtain ⟨i, hlive', -⟩ := h.session hconnected
  rwa [(hlive'.unique hlive).1]

theorem get?_setPhase (x : Socket) (phase : ConnectPhase Socket) :
    (s.setPhase socket phase).tasks.get? x = if x = socket then
      (s.tasks.get? socket).map fun task => { task with phase } else s.tasks.get? x := by
  rw [setPhase]
  cases h : s.tasks.get? socket with
  | none =>
    by_cases hx : x = socket
    · rw [if_pos hx, hx]
      exact h
    · rw [if_neg hx]
  | some task => exact OrderedDict.get?_set _ _ _ _

theorem get?_supersede (x : Socket) :
    (s.supersede socket).tasks.get? x = if x = socket then
      (s.tasks.get? socket).map fun task => { task with superseded := true }
        else s.tasks.get? x := by
  rw [supersede]
  cases h : s.tasks.get? socket with
  | none =>
    by_cases hx : x = socket
    · rw [if_pos hx, hx]
      exact h
    · rw [if_neg hx]
  | some task => exact OrderedDict.get?_set _ _ _ _

/-- Sockets that have not come to the lock do not matter. -/
theorem Owned.of_tasks (h : s.Owned) (hhub : s'.hub = s.hub)
    (hlock : ∀ c x, s.Closing c x → s'.lock = s.lock)
    (htasks : ∀ x task, Matters task.phase →
      (s'.tasks.get? x = some task ↔ s.tasks.get? x = some task))
    (hsuperseded : ∀ x task, s'.tasks.get? x = some task → task.superseded = true →
      Matters task.phase) : s'.Owned := by
  have hlive : ∀ {c x i}, s'.Live c x i ↔ s.Live c x i := by
    intro c x i
    constructor
    · rintro ⟨task, hget, hc, hphase, hsuperseded⟩
      exact ⟨task, (htasks x task (.inl ⟨i, hphase⟩)).mp hget, hc, hphase, hsuperseded⟩
    · rintro ⟨task, hget, hc, hphase, hsuperseded⟩
      exact ⟨task, (htasks x task (.inl ⟨i, hphase⟩)).mpr hget, hc, hphase, hsuperseded⟩
  have hregistered : ∀ {x task i}, s'.tasks.get? x = some task → task.phase = .registered i →
      s.tasks.get? x = some task := fun hget hphase => (htasks _ _ (.inl ⟨_, hphase⟩)).mp hget
  refine ⟨fun c => ?_, fun hx => ?_, fun hx => ?_, fun hx hx' hi hi' => ?_, fun hx hi => ?_,
    fun hx hphase => ?_, fun hx => ?_, fun hx => ?_, fun hx htrue => ?_⟩
  · rw [hhub]
    exact h.one c
  · rw [hhub] at hx ⊢
    obtain ⟨i, hl, hs⟩ := h.session hx
    exact ⟨i, hlive.mpr hl, hs⟩
  · rw [hhub] at hx ⊢
    obtain ⟨c, hl, hs⟩ := h.owner hx
    exact ⟨c, hlive.mpr hl, hs⟩
  · exact h.distinct (hregistered hx hi) (hregistered hx' hi') hi hi'
  · exact h.accepts (hregistered hx hi) hi
  · have hget := (htasks _ _ (.inr ⟨_, _, hphase⟩)).mp hx
    rw [hhub, hlock _ _ ⟨_, _, _, hget, rfl, hphase⟩]
    exact h.closing hget hphase
  · rw [hhub] at hx ⊢
    refine (h.presence hx).imp_right fun ⟨x, task, old, rest, hget, hc, hphase⟩ => ?_
    exact ⟨x, task, old, rest, (htasks x task (.inr ⟨old, rest, hphase⟩)).mpr hget, hc, hphase⟩
  · rw [hhub] at hx
    exact h.present hx
  · exact h.superseded ((htasks _ _ (hsuperseded _ _ hx htrue)).mp hx) htrue

/-- The invariant is about the sockets of each account and the sessions; the other transports may
change the presence. -/
theorem Owned.of_hub (h : s.Owned) {hub : EventHub Socket}
    (hconnected : ∀ c, hub.connected c = s.hub.connected c)
    (hsessions : ∀ i, hub.sessions.get? i = s.hub.sessions.get? i)
    (hforeign : Foreign s.hub.presence hub.presence) :
      ({ s with hub } : HubSystem Socket).Owned := by
  refine ⟨fun c => ?_, fun hx => ?_, fun hx => ?_, h.distinct, h.accepts, fun hx hphase => ?_,
    fun {c i} hget => ?_, fun {c route} hget => ?_, h.superseded⟩
  · rw [hconnected]
    exact h.one c
  · rw [hconnected] at hx
    simp only [hsessions]
    exact h.session hx
  · rw [hsessions] at hx
    simp only [hconnected]
    exact h.owner hx
  · rw [hconnected]
    exact h.closing hx hphase
  · simp only [hconnected, hsessions]
    change hub.presence.get? c = _ at hget
    rcases hforeign c with hsame | hnone | ⟨-, endpoint, haprs⟩
    · exact h.presence (hsame ▸ hget)
    · rw [hnone] at hget
      cases hget
    · rw [haprs] at hget
      cases hget
  · change hub.presence.get? c = _ at hget
    rcases hforeign c with hsame | hnone | ⟨haccepts, -⟩
    · exact h.present (hsame ▸ hget)
    · rw [hnone] at hget
      cases hget
    · exact haccepts

theorem Owned.of_foreign (h : s.Owned) {users : PresenceRegistry}
    (hforeign : Foreign s.hub.presence users) :
    ({ s with hub := { s.hub with presence := users } } : HubSystem Socket).Owned :=
  h.of_hub (fun _ => rfl) (fun _ => rfl) hforeign

/-- The presence names the session of a socket of the account. -/
theorem Owned.of_websocket (h : s.Owned) (hconnected : socket ∈ s.hub.connected callsign)
    (hsession : s.hub.sessions.get? sessionId = some socket) :
    ({ s with hub := { s.hub with
      presence := ((setWebsocket callsign sessionId).run s.hub.presence).2 } } :
        HubSystem Socket).Owned := by
  obtain ⟨c, ⟨task, hget, rfl, hphase, -⟩, -⟩ := h.owner hsession
  obtain ⟨i, ⟨task', hget', hc, -, -⟩, -⟩ := h.session hconnected
  obtain rfl : task = task' := Option.some.inj (hget.symm.trans hget')
  obtain ⟨haccepts, hid⟩ := h.accepts hget hphase
  rw [hc] at haccepts
  rw [setWebsocket_run haccepts hid]
  refine { h with
    presence := fun {c' i'} hpresence => ?_
    present := fun {c' route} hpresence => ?_ }
  · change (s.hub.presence.set callsign _).get? c' = _ at hpresence
    by_cases hc' : c' = callsign
    · rw [hc', OrderedDict.get?_set_self] at hpresence
      obtain rfl : sessionId = i' := by simpa using hpresence
      rw [hc']
      exact .inl ⟨socket, hconnected, hsession⟩
    · rw [OrderedDict.get?_set_of_ne hc'] at hpresence
      exact h.presence hpresence
  · change (s.hub.presence.set callsign _).get? c' = _ at hpresence
    by_cases hc' : c' = callsign
    · rw [hc']
      exact haccepts
    · rw [OrderedDict.get?_set_of_ne hc'] at hpresence
      exact h.present hpresence

/-! #### Activity -/

theorem Owned.recordInternetActivity (h : s.Owned) (callsign : Str) :
    (s.onHub (EventHub.recordInternetActivity callsign)).Owned := by
  rw [onHub, EventHub.recordInternetActivity, run_get_bind]
  cases hfind : s.hub.sessions.entries.find? fun e => e.2 ∈ s.hub.connected callsign with
  | none =>
    rw [run_bind_pure]
    exact h.of_foreign (clear_foreign callsign s.hub.presence)
  | some e =>
    have hentry : s.hub.sessions.get? e.1 = some e.2 :=
      OrderedDict.get?_eq_some_iff.mpr (List.mem_of_find?_eq_some hfind)
    have hconnected : e.2 ∈ s.hub.connected callsign := by
      simpa using List.find?_some hfind
    exact h.of_websocket hconnected hentry

/-- Activity fails only for a callsign that the registry refuses. -/
theorem Owned.recordInternetActivity_fst (h : s.Owned) (callsign : Str) :
    ((EventHub.recordInternetActivity callsign).run s.hub).1 =
      (validateCallsign callsign "callsign").map fun _ => () := by
  rw [EventHub.recordInternetActivity, run_get_bind]
  cases hfind : s.hub.sessions.entries.find? fun e => e.2 ∈ s.hub.connected callsign with
  | none =>
    rw [run_bind_pure]
    show ((clear callsign).run s.hub.presence).1.map _ = _
    rw [clear]
    cases validateCallsign callsign "callsign" <;> rfl
  | some e =>
    have hentry : s.hub.sessions.get? e.1 = some e.2 :=
      OrderedDict.get?_eq_some_iff.mpr (List.mem_of_find?_eq_some hfind)
    have hconnected : e.2 ∈ s.hub.connected callsign := by
      simpa using List.find?_some hfind
    obtain ⟨task, hget, hcallsign, hphase, -⟩ := h.live hentry hconnected
    obtain ⟨haccepts, hid⟩ := h.accepts hget hphase
    rw [hcallsign] at haccepts
    show ((setWebsocket callsign e.1).run s.hub.presence).1 = _
    rw [setWebsocket_run haccepts hid, haccepts]
    rfl

/-- Activity changes the presence of its callsign, and nothing else. -/
theorem recordInternetActivity_snd (callsign : Str) (hub : EventHub Socket) :
    ∃ presence : PresenceRegistry,
      ((EventHub.recordInternetActivity callsign).run hub).2 = { hub with presence } ∧
      ∀ other, other ≠ callsign → presence.get? other = hub.presence.get? other := by
  rw [EventHub.recordInternetActivity, run_get_bind]
  cases hub.sessions.entries.find? fun e => e.2 ∈ hub.connected callsign with
  | none =>
    rw [run_bind_pure]
    refine ⟨_, rfl, fun other hother => ?_⟩
    rcases clear_run callsign hub.presence with ⟨-, hclear⟩ | ⟨-, hclear⟩
    · rw [hclear, OrderedDict.get?_erase, if_neg hother]
    · rw [hclear]
  | some e =>
    refine ⟨_, rfl, fun other hother => ?_⟩
    rcases validateCallsign_cases callsign with h | ⟨e', h⟩
    · by_cases hid : e.1 = []
      · rw [setWebsocket, h, run_ofExcept_ok_bind, raiseIf, if_pos hid]
        rfl
      · rw [setWebsocket_run h hid, OrderedDict.get?_set_of_ne hother]
    · rw [setWebsocket, h]
      rfl

/-! #### Removal -/

/-- The account without the socket. -/
theorem connected_discard (callsign' : Str) (hub : EventHub Socket) :
    (hub.discard callsign socket).connected callsign' =
      if callsign' = callsign then (hub.connected callsign).erase socket else hub.connected
        callsign' := by
  rw [EventHub.discard, EventHub.connected]
  by_cases hleft : (hub.connected callsign).erase socket = ∅
  · rw [if_pos hleft, OrderedDict.get?_erase]
    split
    · exact hleft.symm
    · rfl
  · rw [if_neg hleft, OrderedDict.get?_set]
    split
    · rfl
    · rfl

theorem remove_run (hub : EventHub Socket) (known : Option Str) :
    ((EventHub.remove callsign socket known).run hub).2 =
      match known.or (hub.sessionOf socket) with
      | none => hub.discard callsign socket
      | some sessionId => { hub.discard callsign socket with
          sessions := hub.sessions.erase sessionId
          presence := ((clearWebsocket callsign sessionId).run hub.presence).2 } := by
  rw [EventHub.remove, run_modify_bind, run_get_bind]
  show ((match known.or (hub.sessionOf socket) with
    | none => _
    | some sessionId => _ : Method PyError (EventHub Socket) Unit).run _).2 = _
  cases known.or (hub.sessionOf socket) with
  | none => rfl
  | some sessionId =>
    simp only
    rw [run_modify_bind, run_bind_pure]
    rfl

theorem clearWebsocket_foreign (callsign sessionId : Str) (users : PresenceRegistry) :
    Foreign users ((clearWebsocket callsign sessionId).run users).2 := by
  rw [clearWebsocket]
  rcases clearRoute_run callsign (.websocket sessionId) users with ⟨-, h⟩ | ⟨-, h⟩
  · rw [h]
    exact foreign_erase users callsign
  · rw [h]
    exact foreign_refl users

theorem sessionOf_eq_some {hub : EventHub Socket} (h : hub.sessionOf socket = some sessionId) :
    hub.sessions.get? sessionId = some socket := by
  obtain ⟨e, hfind, rfl⟩ := Option.map_eq_some_iff.mp h
  have hsocket : e.2 = socket := by simpa using List.find?_some hfind
  rw [← hsocket]
  exact OrderedDict.get?_eq_some_iff.mpr (List.mem_of_find?_eq_some hfind)

theorem sessionOf_eq_none {hub : EventHub Socket} (h : hub.sessionOf socket = none) (i : Str) :
    hub.sessions.get? i ≠ some socket := by
  intro hget
  have hall := List.find?_eq_none.mp (Option.map_eq_none_iff.mp h) _
    (OrderedDict.get?_eq_some_iff.mp hget)
  simp at hall

/-- A socket without a session is in no account. -/
theorem Owned.discard_of_forall_ne (h : s.Owned) (hnone : ∀ i, s.hub.sessions.get? i ≠ some socket)
    (c : Str) : (s.hub.discard callsign socket).connected c = s.hub.connected c := by
  rw [connected_discard]
  split
  · next hc =>
    rw [hc]
    refine Finset.erase_eq_of_notMem fun hmem => ?_
    obtain ⟨i, -, hsession⟩ := h.session hmem
    exact hnone i hsession
  · rfl

/-- The socket of an account leaves with its session. -/
theorem Owned.of_removal (h : s.Owned) (hsession : s.hub.sessions.get? sessionId = some socket)
    (hconnected : socket ∈ s.hub.connected callsign) :
    ({ s with hub := { s.hub.discard callsign socket with
      sessions := s.hub.sessions.erase sessionId
      presence := ((clearWebsocket callsign sessionId).run s.hub.presence).2 } } :
        HubSystem Socket).Owned := by
  have hlive := h.live hsession hconnected
  have hleft : ∀ c, (s.hub.discard callsign socket).connected c =
      if c = callsign then ∅ else s.hub.connected c := by
    intro c
    rw [connected_discard, Finset.eq_singleton_iff_unique_mem.mpr
      ⟨hconnected, fun x hx => h.eq_of_connected hx hconnected⟩, Finset.erase_singleton]
  have hof : ∀ {c x}, x ∈ (s.hub.discard callsign socket).connected c →
      c ≠ callsign ∧ x ∈ s.hub.connected c := by
    intro c x hx
    rw [hleft] at hx
    split at hx
    · simp at hx
    · next hc => exact ⟨hc, hx⟩
  have hto : ∀ {c x}, c ≠ callsign → x ∈ s.hub.connected c →
      x ∈ (s.hub.discard callsign socket).connected c := by
    intro c x hc hx
    rwa [hleft, if_neg hc]
  -- the session of another account is another one
  have hsessions : ∀ {c x i}, c ≠ callsign → s.Live c x i → i ≠ sessionId := by
    rintro c x i hc ⟨task, hget, rfl, hphase, -⟩ rfl
    obtain ⟨task', hget', hc', hphase', -⟩ := hlive
    obtain rfl := h.distinct hget hget' hphase hphase'
    obtain rfl : task = task' := Option.some.inj (hget.symm.trans hget')
    exact hc hc'
  refine ⟨fun c => ?_, fun {c x} hx => ?_, fun {i x} hx => ?_, h.distinct, h.accepts,
    fun hx hphase => ?_, fun {c i} hget => ?_, fun {c route} hget => ?_, h.superseded⟩
  · show ((s.hub.discard callsign socket).connected c).card ≤ 1
    rw [hleft]
    split
    · simp
    · exact h.one c
  · obtain ⟨hc, hx⟩ := hof hx
    obtain ⟨i, hl, hs⟩ := h.session hx
    exact ⟨i, hl, (OrderedDict.get?_erase_of_ne (hsessions hc hl)).trans hs⟩
  · change (s.hub.sessions.erase sessionId).get? i = _ at hx
    rw [OrderedDict.get?_erase] at hx
    split at hx
    · cases hx
    · next hi =>
      obtain ⟨c, hl, hmem⟩ := h.owner hx
      refine ⟨c, hl, hto (fun hc => hi ?_) hmem⟩
      rw [hc] at hmem hl
      rw [h.eq_of_connected hmem hconnected] at hl
      exact (hl.unique hlive).2
  · obtain ⟨hlock, hrest, hempty, haccepts⟩ := h.closing hx hphase
    refine ⟨hlock, hrest, ?_, haccepts⟩
    show (s.hub.discard callsign socket).connected _ = ∅
    rw [hleft, hempty, ite_self]
  · have haccepts : Accepts callsign := by
      obtain ⟨task, hgetTask, rfl, hphase, -⟩ := hlive
      exact (h.accepts hgetTask hphase).1
    have hcleared : s.hub.presence.get? c = some (.websocket i) ∧
      (c = callsign → i ≠ sessionId) := by
      change (((clearRoute callsign (.websocket sessionId)).run s.hub.presence).2).get?
        c = _ at hget
      rcases clearRoute_run callsign (.websocket sessionId) s.hub.presence with
        ⟨-, hrun⟩ | ⟨hkept, hrun⟩
      · rw [hrun, OrderedDict.get?_erase] at hget
        split at hget
        · cases hget
        · next hc => exact ⟨hget, fun hc' => absurd hc' hc⟩
      · rw [hrun] at hget
        refine ⟨hget, ?_⟩
        rintro rfl rfl
        exact hkept.elim (· hget) (· haccepts)
    obtain ⟨hget, hne⟩ := hcleared
    refine (h.presence hget).imp_left ?_
    rintro ⟨x, hmem, hs⟩
    have hc : c ≠ callsign := by
      rintro rfl
      rw [h.eq_of_connected hmem hconnected] at hs
      exact hne rfl ((h.live hs hconnected).unique hlive).2
    exact ⟨x, hto hc hmem,
      (OrderedDict.get?_erase_of_ne (hsessions hc (h.live hs hmem))).trans hs⟩
  · rcases clearWebsocket_foreign callsign sessionId s.hub.presence c with
      hsame | hnone | ⟨haccepts, -⟩
    · exact h.present (hsame ▸ hget)
    · exact absurd (hnone.symm.trans hget) (by simp)
    · exact haccepts

/-- A session that ended does not come back. -/
theorem Owned.ended (h : s.Owned) {task : ConnectTask Socket}
    (hget : s.tasks.get? socket = some task)
    (hphase : task.phase = .registered sessionId)
    (hsession : s.hub.sessions.get? sessionId ≠ some socket) :
    s.hub.sessions.get? sessionId = none ∧ ∀ i, s.hub.sessions.get? i ≠ some socket := by
  constructor
  · by_contra hne
    obtain ⟨x, hx⟩ := Option.ne_none_iff_exists'.mp hne
    obtain ⟨c, ⟨task', hget', -, hphase', -⟩, -⟩ := h.owner hx
    exact hsession (hx.trans (congrArg some (h.distinct hget' hget hphase' hphase)))
  · intro i hi
    obtain ⟨c, ⟨task', hget', -, hphase', -⟩, -⟩ := h.owner hi
    obtain rfl : task = task' := Option.some.inj (hget.symm.trans hget')
    rw [ConnectPhase.registered.inj (hphase.symm.trans hphase')] at hsession
    exact hsession hi

/-- A call of `remove` for a socket whose session ended changes neither the sockets of any account
nor the sessions. -/
theorem Owned.remove_ended (h : s.Owned) (callsign : Str) {known : Option Str}
    (hnone : ∀ i, s.hub.sessions.get? i ≠ some socket)
    (hknown : ∀ sessionId, known = some sessionId → s.hub.sessions.get? sessionId = none)
    {hub : EventHub Socket} (hub_eq : hub = ((EventHub.remove callsign socket known).run s.hub).2) :
    (∀ c, hub.connected c = s.hub.connected c) ∧
    (∀ i, hub.sessions.get? i = s.hub.sessions.get? i) ∧
    (hub.presence = s.hub.presence ∨ ∃ sessionId, s.hub.sessions.get? sessionId = none ∧
      s.hub.presence.get? callsign = some (.websocket sessionId) ∧
      hub.presence = s.hub.presence.erase callsign) := by
  have hsessionOf : s.hub.sessionOf socket = none := by
    by_contra hne
    obtain ⟨i, hi⟩ := Option.ne_none_iff_exists'.mp hne
    exact hnone i (sessionOf_eq_some hi)
  rw [remove_run, hsessionOf, Option.or_none] at hub_eq
  subst hub_eq
  cases known with
  | none => exact ⟨h.discard_of_forall_ne hnone, fun i => rfl, .inl rfl⟩
  | some sessionId =>
    have hended := hknown sessionId rfl
    refine ⟨h.discard_of_forall_ne hnone, fun i => ?_, ?_⟩
    · show (s.hub.sessions.erase sessionId).get? i = _
      rw [OrderedDict.get?_erase]
      split
      · next hi =>
        rw [hi]
        exact hended.symm
      · rfl
    · rcases clearRoute_run callsign (.websocket sessionId) s.hub.presence with
        ⟨hroute, hrun⟩ | ⟨-, hrun⟩
      · exact .inr ⟨sessionId, hended, hroute, hrun⟩
      · exact .inl hrun

/-- The session that a call of `remove` is about. -/
theorem Owned.remove (h : s.Owned) {task : ConnectTask Socket}
    (hget : s.tasks.get? socket = some task)
    {known : Option Str}
    (hknown : ∀ sessionId, known = some sessionId → task.phase = .registered sessionId) :
    (s.onHub (EventHub.remove task.callsign socket known)).Owned := by
  by_cases hsession : ∃ i, s.hub.sessions.get? i = some socket
  · obtain ⟨i, hi⟩ := hsession
    obtain ⟨c, hlive, hconnected⟩ := h.owner hi
    obtain ⟨task', hget', rfl, hphase, -⟩ := hlive
    obtain rfl : task = task' := Option.some.inj (hget.symm.trans hget')
    have hid : known.or (s.hub.sessionOf socket) = some i := by
      cases hk : known with
      | none =>
        rw [Option.none_or]
        cases hof : s.hub.sessionOf socket with
        | none => exact absurd hi (sessionOf_eq_none hof i)
        | some j => rw [((h.live (sessionOf_eq_some hof) hconnected).unique
            (h.live hi hconnected)).2]
      | some j => rw [Option.some_or, ConnectPhase.registered.inj ((hknown j hk).symm.trans hphase)]
    rw [onHub, remove_run, hid]
    exact h.of_removal hi hconnected
  · push Not at hsession
    have hended : ∀ i, known = some i → s.hub.sessions.get? i = none := fun i hi =>
      (h.ended hget (hknown i hi) (hsession i)).1
    obtain ⟨hconnected, hsessions, hpresence⟩ := h.remove_ended task.callsign hsession
      hended rfl
    refine h.of_hub hconnected hsessions ?_
    rcases hpresence with heq | ⟨_, -, -, heq⟩
    · rw [heq]
      exact foreign_refl _
    · rw [heq]
      exact foreign_erase _ _

/-! #### Connection -/

theorem Owned.connect (h : s.Owned) (hsocket : socket ∉ s.tasks.keys) (callsign : Str) :
    ({ s with tasks := s.tasks.set socket ⟨callsign, .accepting, false⟩ } :
      HubSystem Socket).Owned := by
  refine h.of_tasks rfl (fun _ _ _ => rfl) (fun x task hmatters => ?_) (fun x task hget htrue => ?_)
  · show (s.tasks.set socket _).get? x = _ ↔ _
    by_cases hx : x = socket
    · rw [hx, OrderedDict.get?_set_self, OrderedDict.get?_eq_none_iff.mpr hsocket]
      simp only [Option.some.injEq, reduceCtorEq, iff_false]
      rintro rfl
      simp [Matters] at hmatters
    · rw [OrderedDict.get?_set_of_ne hx]
  · change (s.tasks.set socket _).get? x = _ at hget
    by_cases hx : x = socket
    · rw [hx, OrderedDict.get?_set_self] at hget
      obtain rfl := Option.some.inj hget
      cases htrue
    · rw [OrderedDict.get?_set_of_ne hx] at hget
      exact .inl (h.superseded hget htrue)

/-- A call of `connect` that has not registered its socket comes to a phase that does not matter. -/
theorem Owned.setPhase (h : s.Owned) {task : ConnectTask Socket}
    (hget : s.tasks.get? socket = some task)
    {phase : ConnectPhase Socket} (hbefore : ¬Matters task.phase) (hafter : ¬Matters phase) :
    (s.setPhase socket phase).Owned := by
  have hfresh : task.superseded = false := by
    by_contra htrue
    exact hbefore (.inl (h.superseded hget (by simpa using htrue)))
  refine h.of_tasks rfl (fun _ _ _ => rfl) (fun x task' hmatters => ?_)
    (fun x task' hget' htrue => ?_)
  · rw [get?_setPhase]
    split
    · next hx =>
      rw [hx, hget, Option.map_some, Option.some.injEq, Option.some.injEq]
      constructor
      · rintro rfl
        exact absurd hmatters hafter
      · rintro rfl
        exact absurd hmatters hbefore
    · rfl
  · rw [get?_setPhase] at hget'
    split at hget'
    · rw [hget] at hget'
      obtain rfl := Option.some.inj hget'
      rw [hfresh] at htrue
      cases htrue
    · exact .inl (h.superseded hget' htrue)

theorem register_run (haccepts : Accepts callsign) (hid : sessionId ≠ []) (hub : EventHub Socket) :
    (EventHub.register callsign socket sessionId).run hub = (.ok (),
      { connections := hub.connections.set callsign (insert socket (hub.connected callsign))
        sessions := hub.sessions.set sessionId socket
        presence := hub.presence.set callsign (.websocket sessionId) }) := by
  have hpresence : (EventHub.onPresence (setWebsocket callsign sessionId)).run hub =
      (.ok (), { hub with presence := hub.presence.set callsign (.websocket sessionId) }) := by
    show (((setWebsocket callsign sessionId).run hub.presence).1, _) = _
    rw [setWebsocket_run haccepts hid]
  rw [EventHub.register, run_bind_of_ok hpresence, run_modify]
  rfl

theorem register_run_of_error {e : PyError}
    (herror : validateCallsign callsign "callsign" = .error e) (hub : EventHub Socket) :
    (EventHub.register callsign socket sessionId).run hub = (.error e, hub) := by
  have hpresence : (EventHub.onPresence (setWebsocket callsign sessionId)).run hub =
      (.error e, hub) := by
    show (((setWebsocket callsign sessionId).run hub.presence).1, _) = _
    rw [setWebsocket, herror]
    rfl
  rw [EventHub.register, run_bind_of_error hpresence]

/-- The new socket is registered. -/
theorem Owned.registered (h : s.Owned) {task : ConnectTask Socket}
    (hget : s.tasks.get? socket = some task) (hbefore : ∀ i, task.phase ≠ .registered i)
    (hlock : ∀ c x, s.Closing c x → x = socket) (hempty : s.hub.connected task.callsign = ∅)
    (hid : s.Unused sessionId) (haccepts : Accepts task.callsign)
    (htasks : ∀ x, s'.tasks.get? x =
      if x = socket then some { task with phase := .registered sessionId } else s.tasks.get? x)
    (hconnected : ∀ c, s'.hub.connected c =
      if c = task.callsign then {socket} else s.hub.connected c)
    (hsessions : ∀ i, s'.hub.sessions.get? i =
      if i = sessionId then some socket else s.hub.sessions.get? i)
    (hpresence : ∀ c, s'.hub.presence.get? c =
      if c = task.callsign then some (.websocket sessionId) else s.hub.presence.get? c) :
    s'.Owned := by
  have hfresh : task.superseded = false := by
    by_contra htrue
    obtain ⟨i, hi⟩ := h.superseded hget (by simpa using htrue)
    exact hbefore i hi
  have hunused : ∀ {x task' i}, s.tasks.get? x = some task' → task'.phase = .registered i →
      i ≠ sessionId := by
    rintro x task' i hget' hphase rfl
    exact hid.2 _ (OrderedDict.get?_eq_some_iff.mp hget') hphase
  have hnew : s'.Live task.callsign socket sessionId :=
    ⟨_, (htasks socket).trans (if_pos rfl), rfl, rfl, hfresh⟩
  have hold : ∀ {c x i}, s.Live c x i → s'.Live c x i ∧ i ≠ sessionId := by
    rintro c x i ⟨task', hget', hc, hphase, hsuperseded⟩
    have hx : x ≠ socket := by
      rintro rfl
      obtain rfl : task = task' := Option.some.inj (hget.symm.trans hget')
      exact hbefore i hphase
    exact ⟨⟨task', (htasks x).trans ((if_neg hx).trans hget'), hc, hphase, hsuperseded⟩,
      hunused hget' hphase⟩
  have htask : ∀ {x t}, s'.tasks.get? x = some t →
      (x = socket ∧ t = { task with phase := .registered sessionId }) ∨
      (x ≠ socket ∧ s.tasks.get? x = some t) := by
    intro x t hx
    rw [htasks] at hx
    split at hx
    · next heq => exact .inl ⟨heq, (Option.some.inj hx).symm⟩
    · next hne => exact .inr ⟨hne, hx⟩
  have hnone : ∀ {c}, ¬s'.Replacing c := by
    rintro c ⟨x, t, old, rest, hx, hc, hphase⟩
    rcases htask hx with ⟨-, rfl⟩ | ⟨hne, hx⟩
    · cases hphase
    · exact hne (hlock c x ⟨t, old, rest, hx, hc, hphase⟩)
  refine ⟨fun c => ?_, fun {c x} hx => ?_, fun {i x} hx => ?_,
    fun {x x'} t t' i hx hx' hi hi' => ?_,
    fun {x t i} hx hi => ?_, fun {x t old rest} hx hphase => ?_, fun {c i} hx => ?_,
    fun {c route} hx => ?_, fun {x t} hx htrue => ?_⟩
  · rw [hconnected]
    split
    · simp
    · exact h.one c
  · rw [hconnected] at hx
    split at hx
    · next hc =>
      rw [hc, Finset.mem_singleton.mp hx]
      exact ⟨sessionId, hnew, (hsessions sessionId).trans (if_pos rfl)⟩
    · obtain ⟨i, hlive, hs⟩ := h.session hx
      exact ⟨i, (hold hlive).1, (hsessions i).trans ((if_neg (hold hlive).2).trans hs)⟩
  · rw [hsessions] at hx
    split at hx
    · next hi =>
      rw [hi, ← Option.some.inj hx]
      exact ⟨_, hnew, by rw [hconnected, if_pos rfl, Finset.mem_singleton]⟩
    · obtain ⟨c, hlive, hmem⟩ := h.owner hx
      refine ⟨c, (hold hlive).1, ?_⟩
      rw [hconnected, if_neg]
      · exact hmem
      · rintro rfl
        rw [hempty] at hmem
        simp at hmem
  · rcases htask hx with ⟨rfl, rfl⟩ | ⟨-, hx⟩ <;> rcases htask hx' with ⟨rfl, rfl⟩ | ⟨-, hx'⟩
    · rfl
    · exact absurd (ConnectPhase.registered.inj hi).symm (hunused hx' hi')
    · exact absurd (ConnectPhase.registered.inj hi').symm (hunused hx hi)
    · exact h.distinct hx hx' hi hi'
  · rcases htask hx with ⟨rfl, rfl⟩ | ⟨-, hx⟩
    · exact ⟨haccepts, ConnectPhase.registered.inj hi ▸ hid.1⟩
    · exact h.accepts hx hi
  · exact absurd ⟨x, t, old, rest, hx, rfl, hphase⟩ hnone
  · rw [hpresence] at hx
    left
    split at hx
    · next hc =>
      obtain rfl : sessionId = i := by simpa using hx
      rw [hc, hconnected, if_pos rfl, hsessions, if_pos rfl]
      exact ⟨socket, Finset.mem_singleton_self _, rfl⟩
    · next hc =>
      rcases h.presence hx with ⟨x, hmem, hs⟩ | ⟨x, hclosing⟩
      · rw [hconnected, if_neg hc, hsessions, if_neg (hold (h.live hs hmem)).2]
        exact ⟨x, hmem, hs⟩
      · -- another account cannot be replacing, since this call holds the lock
        obtain rfl := hlock c x hclosing
        obtain ⟨t, -, -, hget', rfl, -⟩ := hclosing
        rw [Option.some.inj (hget.symm.trans hget')] at hc
        exact absurd rfl hc
  · rw [hpresence] at hx
    split at hx
    · next hc => exact hc ▸ haccepts
    · exact h.present hx
  · rcases htask hx with ⟨rfl, rfl⟩ | ⟨-, hx⟩
    · rw [show task.superseded = true from htrue] at hfresh
      cases hfresh
    · exact h.superseded hx htrue

/-- A call of `connect` that has closed every older socket, or had none to close. -/
theorem Owned.proceed_nil (h : s.Owned) {task : ConnectTask Socket}
    (hget : s.tasks.get? socket = some task) (hbefore : ∀ i, task.phase ≠ .registered i)
    (hlock : ∀ c x, s.Closing c x → x = socket) (hempty : s.hub.connected task.callsign = ∅)
    (hid : s.Unused sessionId) : (s.proceed task.callsign socket sessionId []).Owned := by
  rcases validateCallsign_cases task.callsign with haccepts | ⟨e, herror⟩
  · rw [HubSystem.proceed, register_run haccepts hid.1]
    refine h.registered hget hbefore hlock hempty hid haccepts (fun x => ?_) (fun c => ?_)
      (fun i => OrderedDict.get?_set _ _ _ _) (fun c => OrderedDict.get?_set _ _ _ _)
    · rw [get?_setPhase]
      show (if x = socket then (s.tasks.get? socket).map _ else _) = _
      rw [hget]
      rfl
    · show ((s.hub.connections.set task.callsign _).get? c).getD ∅ = _
      rw [OrderedDict.get?_set]
      split
      · rw [hempty]
        rfl
      · rfl
  · rw [HubSystem.proceed, register_run_of_error herror]
    have hnone : ∀ c x, ¬s.Closing c x := by
      rintro c x hx
      obtain rfl := hlock c x hx
      obtain ⟨t, old, rest, hx, rfl, hphase⟩ := hx
      obtain rfl : task = t := Option.some.inj (hget.symm.trans hx)
      obtain ⟨-, -, -, haccepts⟩ := h.closing hx hphase
      rw [Accepts, herror] at haccepts
      cases haccepts
    have hfree : ({ s with lock := none } : HubSystem Socket).Owned :=
      h.of_tasks rfl (fun c x hx => absurd hx (hnone c x)) (fun _ _ _ => Iff.rfl)
        fun x t hx htrue => .inl (h.superseded hx htrue)
    refine hfree.setPhase hget ?_ (by simp [Matters])
    rintro (⟨i, hi⟩ | ⟨old, rest, hphase⟩)
    · exact hbefore i hi
    · exact hnone _ _ ⟨task, old, rest, hget, rfl, hphase⟩

/-- A call of `connect` takes out the older socket of the account. -/
theorem Owned.replaced (h : s.Owned) {task : ConnectTask Socket} {old : Socket}
    (hget : s.tasks.get? socket = some task) (hphase : task.phase = .waiting)
    (hlock : s.lock = none) (hold : old ∈ s.hub.connected task.callsign)
    (htasks : ∀ x, s'.tasks.get? x = if x = socket then some { task with phase := .closing old [] }
      else if x = old then (s.tasks.get? old).map fun t => { t with superseded := true }
      else s.tasks.get? x)
    (hlock' : s'.lock = some socket)
    (hconnected : ∀ c, s'.hub.connected c = if c = task.callsign then ∅ else s.hub.connected c)
    (hsessions : ∀ i x, s'.hub.sessions.get? i = some x ↔ s.hub.sessions.get? i = some x ∧ x ≠ old)
    (hpresence : s'.hub.presence = s.hub.presence) : s'.Owned := by
  obtain ⟨oldId, hlive, -⟩ := h.session hold
  have haccepts : Accepts task.callsign := by
    obtain ⟨t, hx, hc, hi, -⟩ := hlive
    exact hc ▸ (h.accepts hx hi).1
  have hfresh : task.superseded = false := by
    by_contra htrue
    obtain ⟨i, hi⟩ := h.superseded hget (by simpa using htrue)
    rw [hphase] at hi
    cases hi
  have htask : ∀ {x t}, s'.tasks.get? x = some t →
      (x = socket ∧ t = { task with phase := .closing old [] }) ∨
      ∃ t', s.tasks.get? x = some t' ∧ t.callsign = t'.callsign ∧ t.phase = t'.phase ∧
        (t = t' ∨ ∃ i, t'.phase = .registered i) := by
    intro x t hx
    rw [htasks] at hx
    split at hx
    · next heq => exact .inl ⟨heq, (Option.some.inj hx).symm⟩
    · split at hx
      · next heq =>
        obtain ⟨t', hx', hc, hi, -⟩ := hlive
        rw [hx', Option.map_some, Option.some.injEq] at hx
        subst hx
        exact .inr ⟨t', heq ▸ hx', rfl, rfl, .inr ⟨oldId, hi⟩⟩
      · exact .inr ⟨t, hx, rfl, rfl, .inl rfl⟩
  have hkept : ∀ {c x i}, s.Live c x i → x ≠ old → s'.Live c x i := by
    rintro c x i ⟨t, hx, hc, hi, hsuperseded⟩ hne
    have hsocket : x ≠ socket := by
      rintro rfl
      obtain rfl : task = t := Option.some.inj (hget.symm.trans hx)
      rw [hphase] at hi
      cases hi
    exact ⟨t, by rw [htasks, if_neg hsocket, if_neg hne, hx], hc, hi, hsuperseded⟩
  have hof : ∀ {c x}, x ∈ s'.hub.connected c → c ≠ task.callsign ∧ x ∈ s.hub.connected c ∧
    x ≠ old := by
    intro c x hx
    rw [hconnected] at hx
    split at hx
    · simp at hx
    · next hc =>
      refine ⟨hc, hx, ?_⟩
      rintro rfl
      obtain ⟨i, hl, -⟩ := h.session hx
      exact hc (hl.unique hlive).1
  have hregistered : ∀ {x t i}, s'.tasks.get? x = some t → t.phase = .registered i →
      ∃ t', s.tasks.get? x = some t' ∧ t.callsign = t'.callsign ∧ t'.phase = .registered i := by
    intro x t i hx hi
    rcases htask hx with ⟨rfl, rfl⟩ | ⟨t', hx', hc, hp, -⟩
    · cases hi
    · exact ⟨t', hx', hc, hp ▸ hi⟩
  have hnone : ∀ {c x}, ¬s.Closing c x := by
    rintro c x ⟨t, o, rest, hx, -, hi⟩
    rw [(h.closing hx hi).1] at hlock
    cases hlock
  refine ⟨fun c => ?_, fun {c x} hx => ?_, fun {i x} hx => ?_,
    fun {x x'} t t' i hx hx' hi hi' => ?_,
    fun {x t i} hx hi => ?_, fun {x t o rest} hx hi => ?_, fun {c i} hx => ?_,
    fun {c route} hx => ?_, fun {x t} hx htrue => ?_⟩
  · rw [hconnected]
    split
    · simp
    · exact h.one c
  · obtain ⟨hc, hmem, hne⟩ := hof hx
    obtain ⟨i, hl, hs⟩ := h.session hmem
    exact ⟨i, hkept hl hne, (hsessions i x).mpr ⟨hs, hne⟩⟩
  · obtain ⟨hs, hne⟩ := (hsessions i x).mp hx
    obtain ⟨c, hl, hmem⟩ := h.owner hs
    refine ⟨c, hkept hl hne, ?_⟩
    rw [hconnected, if_neg]
    · exact hmem
    · rintro rfl
      exact hne (h.eq_of_connected hmem hold)
  · obtain ⟨t₁, hx₁, -, hi₁⟩ := hregistered hx hi
    obtain ⟨t₂, hx₂, -, hi₂⟩ := hregistered hx' hi'
    exact h.distinct hx₁ hx₂ hi₁ hi₂
  · obtain ⟨t', hx', hc, hi'⟩ := hregistered hx hi
    exact hc ▸ h.accepts hx' hi'
  · rcases htask hx with ⟨rfl, rfl⟩ | ⟨t', hx', -, hp, -⟩
    · refine ⟨hlock', (ConnectPhase.closing.inj hi).2.symm, ?_, haccepts⟩
      rw [hconnected, if_pos rfl]
    · exact absurd ⟨t', o, rest, hx', rfl, hp ▸ hi⟩ hnone
  · rw [hpresence] at hx
    by_cases hc : c = task.callsign
    · exact .inr ⟨socket, { task with phase := .closing old [] }, old, [],
        (htasks socket).trans (if_pos rfl), hc.symm, rfl⟩
    · rcases h.presence hx with ⟨x, hmem, hs⟩ | ⟨x, hx⟩
      · have hmem' : x ∈ s'.hub.connected c := by rwa [hconnected, if_neg hc]
        exact .inl ⟨x, hmem', (hsessions i x).mpr ⟨hs, (hof hmem').2.2⟩⟩
      · exact absurd hx hnone
  · rw [hpresence] at hx
    exact h.present hx
  · rcases htask hx with ⟨rfl, rfl⟩ | ⟨t', hx', -, hp, rfl | ⟨i, hi⟩⟩
    · rw [show task.superseded = true from htrue] at hfresh
      cases hfresh
    · exact h.superseded hx' htrue
    · exact ⟨i, hp.trans hi⟩

/-- An account has at most one older socket. -/
theorem Owned.previous (h : s.Owned) {previous : List Socket} (hnodup : previous.Nodup)
    (hprevious : previous.toFinset = s.hub.connected callsign) :
    (previous = [] ∧ s.hub.connected callsign = ∅) ∨
    ∃ old, previous = [old] ∧ old ∈ s.hub.connected callsign := by
  have hlength : previous.length ≤ 1 := by
    rw [← List.toFinset_card_of_nodup hnodup, hprevious]
    exact h.one callsign
  match previous, hlength with
  | [], _ => exact .inl ⟨rfl, by rw [← hprevious, List.toFinset_nil]⟩
  | [old], _ => exact .inr ⟨old, rfl, by simp [← hprevious]⟩

theorem Owned.acquire (h : s.Owned) {task : ConnectTask Socket}
    (hget : s.tasks.get? socket = some task) (hphase : task.phase = .waiting)
    (hlock : s.lock = none) {previous : List Socket} (hnodup : previous.Nodup)
    (hprevious : previous.toFinset = s.hub.connected task.callsign) (hid : s.Unused sessionId) :
    (({ s with
      lock := some socket
      hub := { s.hub with connections := s.hub.connections.erase task.callsign } } :
        HubSystem Socket).proceed task.callsign socket sessionId previous).Owned := by
  have hnone : ∀ {c x}, ¬s.Closing c x := by
    rintro c x ⟨t, o, rest, hx, -, hi⟩
    rw [(h.closing hx hi).1] at hlock
    cases hlock
  have hconnected : ∀ c, EventHub.connected c
      { s.hub with connections := s.hub.connections.erase task.callsign } =
        if c = task.callsign then ∅ else s.hub.connected c := by
    intro c
    show ((s.hub.connections.erase task.callsign).get? c).getD ∅ = _
    rw [OrderedDict.get?_erase]
    split <;> rfl
  rcases h.previous hnodup hprevious with ⟨rfl, hempty⟩ | ⟨old, rfl, hold⟩
  · have hlocked : ({ s with lock := some socket } : HubSystem Socket).Owned :=
      h.of_tasks rfl (fun c x hx => absurd hx hnone) (fun _ _ _ => Iff.rfl)
        fun x t hx htrue => .inl (h.superseded hx htrue)
    have hsame : ∀ c, EventHub.connected c
        { s.hub with connections := s.hub.connections.erase task.callsign } =
          s.hub.connected c := by
      intro c
      rw [hconnected]
      split
      · next hc => rw [hc, hempty]
      · rfl
    have hopened : ({ s with
        lock := some socket
        hub := { s.hub with connections := s.hub.connections.erase task.callsign } } :
          HubSystem Socket).Owned := hlocked.of_hub hsame (fun _ => rfl) (foreign_refl _)
    refine hopened.proceed_nil hget (fun i => ?_) (fun c x hx => absurd hx hnone) ?_ hid
    · simp [hphase]
    · exact (hconnected _).trans (if_pos rfl)
  · have hne : socket ≠ old := by
      rintro rfl
      obtain ⟨i, ⟨t, hx, -, hi, -⟩, -⟩ := h.session hold
      obtain rfl : task = t := Option.some.inj (hget.symm.trans hx)
      rw [hphase] at hi
      cases hi
    refine h.replaced hget hphase hlock hold (fun x => ?_) rfl (fun c => hconnected c)
      (fun i x => ?_) rfl
    · rw [HubSystem.proceed, get?_setPhase, get?_supersede, get?_supersede, if_neg hne]
      show (if x = socket then (s.tasks.get? socket).map _ else
        if x = old then (s.tasks.get? old).map _ else s.tasks.get? x) = _
      rw [hget]
      rfl
    · show (s.hub.sessions.filter _).get? i = some x ↔ _
      rw [OrderedDict.get?_filter, Option.filter_eq_some_iff]
      simp

end Steps

/-! ### Runs -/

/-- The lemma about one step. -/
theorem Owned.step {s s' : HubSystem Socket} (h : s.Owned) {action : HubAction Socket}
    (hstep : s.step action = some s') : s'.Owned := by
  cases action with
  | connect callsign socket =>
    simp only [HubSystem.step, Option.ite_none_left_eq_some, Option.some.injEq] at hstep
    obtain ⟨hsocket, rfl⟩ := hstep
    exact h.connect hsocket callsign
  | accepted socket =>
    obtain ⟨task, hget, hstep⟩ := Option.bind_eq_some_iff.mp hstep
    simp only [Option.ite_none_right_eq_some, Option.some.injEq] at hstep
    obtain ⟨hphase, rfl⟩ := hstep
    exact h.setPhase hget (by simp [Matters, hphase]) (by simp [Matters])
  | acquire socket previous sessionId =>
    obtain ⟨task, hget, hstep⟩ := Option.bind_eq_some_iff.mp hstep
    simp only [Option.ite_none_right_eq_some, Option.some.injEq] at hstep
    obtain ⟨⟨hphase, hlock, hnodup, hprevious, hid⟩, rfl⟩ := hstep
    exact h.acquire hget hphase hlock hnodup hprevious hid
  | closed socket sessionId =>
    obtain ⟨task, hget, hstep⟩ := Option.bind_eq_some_iff.mp hstep
    cases hphase : task.phase with
    | closing old rest =>
      simp only [hphase, Option.ite_none_right_eq_some, Option.some.injEq] at hstep
      obtain ⟨hid, rfl⟩ := hstep
      obtain ⟨hlock, rfl, hempty, -⟩ := h.closing hget hphase
      refine h.proceed_nil hget (fun i => ?_) (fun c x ⟨t, o, rest, hx, _, hi⟩ => ?_) hempty hid
      · simp [hphase]
      · exact Option.some.inj ((h.closing hx hi).1.symm.trans hlock)
    | _ => simp [hphase] at hstep
  | remove socket known =>
    obtain ⟨task, hget, hstep⟩ := Option.bind_eq_some_iff.mp hstep
    cases known with
    | false =>
      obtain rfl := Option.some.inj hstep
      exact h.remove hget (by simp)
    | true =>
      cases hphase : task.phase with
      | registered sessionId =>
        simp only [hphase, Option.some.injEq] at hstep
        subst hstep
        exact h.remove hget fun i hi => hphase.trans (congrArg _ (Option.some.inj hi))
      | _ => simp [hphase] at hstep
  | recordInternetActivity callsign =>
    obtain rfl := Option.some.inj hstep
    exact h.recordInternetActivity callsign
  | setAprs callsign endpoint =>
    obtain rfl := Option.some.inj hstep
    exact h.of_foreign (setAprs_foreign callsign endpoint s.hub.presence)
  | clearAprs callsign endpoint =>
    obtain rfl := Option.some.inj hstep
    exact h.of_foreign (clearAprs_foreign callsign endpoint s.hub.presence)
  | clear callsign =>
    obtain rfl := Option.some.inj hstep
    exact h.of_foreign (clear_foreign callsign s.hub.presence)

theorem Owned.start : ({} : HubSystem Socket).Owned where
  one _ := by simp [EventHub.connected]
  session hx := by simp [EventHub.connected] at hx
  owner hx := by simp at hx
  distinct hx := by simp at hx
  accepts hx := by simp at hx
  closing hx := by simp at hx
  presence hx := by simp at hx
  present hx := by simp at hx
  superseded hx := by simp at hx

theorem Reachable.owned {s : HubSystem Socket} (h : s.Reachable) : s.Owned := by
  induction h with
  | start => exact .start
  | step before last ih => exact ih.step last

/-- The steps one after the other, if they are possible. -/
def steps (s : HubSystem Socket) : List (HubAction Socket) → Option (HubSystem Socket)
  | [] => some s
  | action :: rest => (s.step action).bind fun s' => s'.steps rest

theorem Reachable.steps {s s' : HubSystem Socket} (h : s.Reachable) :
    ∀ {actions : List (HubAction Socket)}, s.steps actions = some s' → s'.Reachable
  | [], hsteps => Option.some.inj hsteps ▸ h
  | action :: rest, hsteps => by
    obtain ⟨t, hstep, hrest⟩ := Option.bind_eq_some_iff.mp hsteps
    exact (h.step hstep).steps hrest

/-- The sockets and the sessions of an account are the same, a presence that names a session names
one of them, and a late `remove` of a socket that was replaced changes nothing. -/
structure Consistent (callsign : Str) (s : HubSystem Socket) : Prop where
  one : (s.hub.connected callsign).card ≤ 1
  session : ∀ socket ∈ s.hub.connected callsign,
    ∃! sessionId, s.hub.sessions.get? sessionId = some socket
  owner : ∀ sessionId socket, s.hub.sessions.get? sessionId = some socket →
    ∃ task, s.tasks.get? socket = some task ∧ socket ∈ s.hub.connected task.callsign
  presence : ∀ sessionId, s.hub.presence.get? callsign = some (.websocket sessionId) →
    ∃ socket ∈ s.hub.connected callsign, s.hub.sessions.get? sessionId = some socket
  late : ∀ socket task known s', s.tasks.get? socket = some task → task.callsign = callsign →
    task.superseded = true → s.step (.remove socket known) = some s' →
      (∀ c, s'.hub.connected c = s.hub.connected c) ∧
      (∀ sessionId, s'.hub.sessions.get? sessionId = s.hub.sessions.get? sessionId) ∧
      s'.hub.presence = s.hub.presence

/-- A socket that was replaced has no session. -/
theorem Owned.late {s s' : HubSystem Socket} (h : s.Owned) {socket : Socket}
    {task : ConnectTask Socket} (hget : s.tasks.get? socket = some task)
    (htrue : task.superseded = true) (hquiet : ¬s.Replacing task.callsign) {known : Bool}
    (hstep : s.step (.remove socket known) = some s') :
    (∀ c, s'.hub.connected c = s.hub.connected c) ∧
    (∀ sessionId, s'.hub.sessions.get? sessionId = s.hub.sessions.get? sessionId) ∧
    s'.hub.presence = s.hub.presence := by
  obtain ⟨i, hphase⟩ := h.superseded hget htrue
  have hnone : ∀ j, s.hub.sessions.get? j ≠ some socket := by
    intro j hj
    obtain ⟨c, ⟨task', hget', -, -, hfalse⟩, -⟩ := h.owner hj
    obtain rfl : task = task' := Option.some.inj (hget.symm.trans hget')
    rw [htrue] at hfalse
    cases hfalse
  obtain ⟨sessionId, hknown, rfl⟩ : ∃ sessionId : Option Str,
      (∀ j, sessionId = some j → task.phase = .registered j) ∧
        s' = s.onHub (EventHub.remove task.callsign socket sessionId) := by
    simp only [HubSystem.step, hget, Option.bind_some, Option.bind_eq_bind] at hstep
    cases known with
    | false => exact ⟨none, by simp, (Option.some.inj hstep).symm⟩
    | true =>
      rw [hphase] at hstep
      exact ⟨some i, fun j hj => Option.some.inj hj ▸ hphase, (Option.some.inj hstep).symm⟩
  obtain ⟨hconnected, hsessions, hpresence⟩ := h.remove_ended task.callsign hnone
    (fun j hj => (h.ended hget (hknown j hj) (hnone j)).1) rfl
  refine ⟨hconnected, hsessions, hpresence.elim id ?_⟩
  rintro ⟨j, hended, hroute, -⟩
  rcases h.presence hroute with ⟨x, -, hx⟩ | hreplacing
  · rw [hended] at hx
    cases hx
  · exact absurd hreplacing hquiet

end HubSystem

/-- **Ownership of WebSocket connections.** Whatever the order of the steps, an account that no call
of `connect` is replacing the socket of is consistent. -/
theorem websocket_ownership {s : HubSystem Socket} (h : s.Reachable) (callsign : Str)
    (hquiet : ¬s.Replacing callsign) : s.Consistent callsign where
  one := h.owned.one callsign
  session socket hsocket := by
    obtain ⟨sessionId, hlive, hs⟩ := h.owned.session hsocket
    exact ⟨sessionId, hs, fun i hi => ((h.owned.live hi hsocket).unique hlive).2⟩
  owner sessionId socket hs := by
    obtain ⟨c, ⟨task, hget, rfl, -, -⟩, hmem⟩ := h.owned.owner hs
    exact ⟨task, hget, hmem⟩
  presence sessionId hroute := (h.owned.presence hroute).resolve_right hquiet
  late socket task known s' hget hc htrue hstep :=
    h.owned.late hget htrue (hc ▸ hquiet) hstep

/-- An account opens a second socket while its first one is registered. -/
def HubSystem.reconnected : HubSystem ℕ :=
  (({} : HubSystem ℕ).steps [.connect (str "EA1ABC") 1, .accepted 1, .acquire 1 [] (str "a"),
    .setAprs (str "EA1ABC") (str "EA1ABC-7"), .connect (str "EA1ABC") 2, .accepted 2,
    .acquire 2 [1] (str "b"), .closed 2 (str "b")]).getD {}

theorem websocket_ownership_reconnected : HubSystem.reconnected.Consistent (str "EA1ABC") ∧
    HubSystem.reconnected.tasks.get? 1 = some ⟨str "EA1ABC", .registered (str "a"), true⟩ ∧
    HubSystem.reconnected.tasks.get? 2 = some ⟨str "EA1ABC", .registered (str "b"), false⟩ ∧
    HubSystem.reconnected.hub.presence.get? (str "EA1ABC") = some (.websocket (str "b")) := by
  have hsteps : (({} : HubSystem ℕ).steps [.connect (str "EA1ABC") 1, .accepted 1,
      .acquire 1 [] (str "a"), .setAprs (str "EA1ABC") (str "EA1ABC-7"), .connect (str "EA1ABC") 2,
      .accepted 2, .acquire 2 [1] (str "b"), .closed 2 (str "b")]).isSome := by decide +kernel
  obtain ⟨s, hs⟩ := Option.isSome_iff_exists.mp hsteps
  have hreachable : HubSystem.reconnected.Reachable := by
    rw [HubSystem.reconnected, hs]
    exact HubSystem.Reachable.start.steps hs
  have htasks : ∀ e ∈ HubSystem.reconnected.tasks.entries, e.2.phase = .registered (str "a") ∨
      e.2.phase = .registered (str "b") := by decide +kernel
  refine ⟨websocket_ownership hreachable (str "EA1ABC") ?_, by decide +kernel, by decide +kernel,
    by decide +kernel⟩
  rintro ⟨socket, task, old, rest, hget, -, hphase⟩
  rcases htasks _ (OrderedDict.get?_eq_some_iff.mp hget) with h | h <;> simp [hphase] at h

end OpenQSP
