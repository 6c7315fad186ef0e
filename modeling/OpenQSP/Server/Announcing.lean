import OpenQSP.Server.Serving
import OpenQSP.Server.Tcp
import OpenQSP.Storage.Counters

/-!
# Announcements

What the core does to the messages and to the sessions while it handles a request: nothing, or it
stores one message and writes it to each open session of its recipient. The other listeners of the
core do not change this.

## Main definitions

* `Tables.Adds` — one message more
* `Accepted` — what a call of `send_message` leaves
* `TCPServer.push` — a frame for each open session of a callsign
* `Announces` — nothing, or one message

## Main results

* `deliverMessage_run` — the registry writes to the open sessions of the recipient
* `sendMessage_announces`, `handleFrame_announces`
-/

namespace OpenQSP

open Method

/-! ### One message more -/

/-- The row is new, the last of its mailbox, and is delivered as this message. -/
structure Tables.Adds (t t' : Tables) (row : (Str × ℕ) × MessageRow) (message : Message) :
    Prop where
  consistent : t'.Consistent
  rows : t'.messages.entries = t.messages.entries ++ [row]
  recipient : row.1.1 = message.recipient
  sequence : row.1.2 = t.highest message.recipient + 1
  highest : ∀ r, t'.highest r = if r = message.recipient then t.highest r + 1 else t.highest r
  delivers : t'.Delivers row message
  /-- The messages that were there are delivered as before. -/
  keeps : ∀ e ∈ t.messages.entries, ∀ value, t.Delivers e value → t'.Delivers e value

section Tables

variable {t t' t'' : Tables}

theorem SameMessages.mailbox (h : SameMessages t t') (r : Str) : t'.mailbox r = t.mailbox r := by
  rw [Tables.mailbox_eq_orderBy, h.2.2.1, Tables.mailbox_eq_orderBy]

theorem SameMessages.delivers (h : SameMessages t t') {e : (Str × ℕ) × MessageRow}
    {message : Message} (hdelivers : t.Delivers e message) : t'.Delivers e message := by
  obtain ⟨stored, hstored, hevent⟩ := hdelivers
  refine ⟨stored, hstored, ?_⟩
  simp only [messageEvent, conversationSequence, h.mailbox]
  exact hevent

theorem SameMessages.highest (h : SameMessages t t') (r : Str) : t'.highest r = t.highest r := by
  rw [Tables.highest, h.1, Tables.highest]

theorem Tables.Adds.trans_same {row : (Str × ℕ) × MessageRow} {message : Message}
    (h : t.Adds t' row message) (hsame : SameMessages t' t'') : t.Adds t'' row message where
  consistent := h.consistent.of_sameMessages hsame
  rows := by rw [hsame.2.2.1, h.rows]
  recipient := h.recipient
  sequence := h.sequence
  highest r := by rw [hsame.highest, h.highest]
  delivers := hsame.delivers h.delivers
  keeps e he value hvalue := hsame.delivers (h.keeps e he value hvalue)

/-- A call of `send_message` that has an event adds its message, and the event can be written to a
session. -/
theorem SendCall.accept_adds (h : t.Consistent) {call : SendCall} {acceptance : MessageAcceptance}
    {event : Message} (hrun : call.accept.run t = (.ok (acceptance, some event), t')) :
    (∃ row, t.Adds t' row event) ∧
      ∃ frame, encodeFrame (.message event) true = .ok frame := by
  obtain ⟨-, hok⟩ := call.accept_spec h
  rw [hrun] at hok
  obtain ⟨houtcome, hnone, -⟩ := hok _ rfl
  dsimp only at houtcome hnone
  have hcreated : acceptance.created = true := by
    by_contra hcreated
    cases hnone (Bool.eq_false_iff.mpr hcreated)
  have hfits := call.accept_fits h hrun hcreated
  have h' := (houtcome.preserves h).1
  have hbulletins := houtcome.bulletins.1
  have hevent := SendCall.accept_event hrun
  rcases houtcome.accepted with ⟨hfalse, -⟩ | ⟨-, t₁, apiIdempotency, haccepts, rfl, -⟩
  · cases hcreated.symm.trans hfalse
  obtain ⟨data, hdata, hrows, hstored⟩ := haccepts.messages_eq
  obtain ⟨number, hnumber, hmessage⟩ := Py.bind_eq_ok.mp hevent
  have hmessage : event = acceptance.message.toMessage number := (Except.ok.inj hmessage).symm
  have hrecipient : event.recipient = call.recipient := by
    rw [hmessage]
    exact congrArg StoredMessage.recipient haccepts.message_eq
  have hgrows : t.Grows { t₁ with apiIdempotency } :=
    ⟨⟨_, hrows.symm⟩, by rw [hbulletins]⟩
  refine ⟨⟨_, h', hrows, hrecipient.symm, ?_, fun r => ?_, ⟨_, hstored, hevent⟩,
    fun e he value hvalue => hvalue.grows he hgrows h h'⟩, ?_⟩
  · rw [hrecipient]
    rfl
  · rw [hrecipient]
    refine (haccepts.highest_eq r).trans ?_
    split
    · next heq =>
      rw [heq]
      rfl
    · rfl
  · obtain ⟨hpos, hle⟩ := conversationSequence_range hnumber
    have hvalid : event.Valid := by
      rw [hmessage]
      exact (valid_toMessage hstored hpos hle).mpr hfits
    have hobj : ∀ value, ProtocolObject.message event ≠ .getMessage value := by
      intro value h
      cases h
    obtain ⟨payload, hpayload, hlen⟩ := (encodable_iff hobj).mp (encodable_message.mpr hvalid)
    exact ⟨_, (encodeFrame_iff hobj hlen fun _ => rfl).mpr hpayload⟩

/-- What a call of `send_message` leaves, and its event. -/
inductive Accepted (t t' : Tables) : Option Message → Prop
  | nothing (same : t' = t) : Accepted t t' none
  | message {row : (Str × ℕ) × MessageRow} {message : Message} {frame : Bytes}
      (adds : t.Adds t' row message)
      (encoded : encodeFrame (.message message) true = .ok frame) : Accepted t t' (some message)

theorem SendCall.accept_accepted (h : t.Consistent) {call : SendCall}
    {outcome : Py (MessageAcceptance × Option Message)} (hrun : call.accept.run t = (outcome, t')) :
    Accepted t t' (outcome.toOption.bind Prod.snd) := by
  obtain ⟨herror, hok⟩ := call.accept_spec h
  rw [hrun] at herror hok
  rcases outcome with e | ⟨acceptance, _ | event⟩
  · exact .nothing (herror e rfl)
  · obtain ⟨houtcome, -, hsome⟩ := hok _ rfl
    dsimp only at houtcome hsome
    rcases hcreated : acceptance.created with _ | _
    · rw [hcreated] at houtcome
      exact .nothing houtcome.replayed_stored.1
    · obtain ⟨_, hevent⟩ := hsome hcreated
      cases hevent
  · obtain ⟨⟨row, hadds⟩, frame, hframe⟩ := SendCall.accept_adds h hrun
    exact .message hadds hframe

/-- The events of a dispatch; one that raises has none. -/
def eventsOf (outcome : Py (List ProtocolObject × List Message)) : List Message :=
  match outcome with
  | .ok (_, events) => events
  | .error _ => []

/-- What a request leaves, and its events. -/
theorem dispatch_accepted (h : t.Consistent) {stores : Stores} {clock : ℤ} {callsign : Str}
    {request : ProtocolObject} {outcome : Py (List ProtocolObject × List Message)}
    (hrun : (dispatch stores clock callsign request).run t = (outcome, t')) :
    ∃ event, Accepted t t' event ∧ eventsOf outcome = event.toList := by
  have hnothing : ∀ {result : Py (List ProtocolObject × List Message)},
      (result, t) = (outcome, t') → eventsOf result = [] →
      ∃ event, Accepted t t' event ∧ eventsOf outcome = event.toList := by
    intro result hresult hevents
    obtain ⟨rfl, rfl⟩ := Prod.mk.inj hresult
    exact ⟨none, .nothing rfl, hevents⟩
  have hquiet : ∀ {P : List ProtocolObject → Prop}
      {m : Method PyError Tables (List ProtocolObject)}, Reads P m →
      (m >>= fun responses => pure (responses, ([] : List Message))).run t = (outcome, t') →
      ∃ event, Accepted t t' event ∧ eventsOf outcome = event.toList := by
    intro P m hm hrun
    rw [run_bind_pure, (hm t).1] at hrun
    refine hnothing hrun ?_
    cases (m.run t).1 <;> rfl
  cases request with
  | getMessage request => exact hquiet (handleGetMessage_reads request) hrun
  | getNewMessages request => exact hquiet (handleGetNewMessages_reads request) hrun
  | getNewBulletins request => exact hquiet (handleGetNewBulletins_reads request) hrun
  | getBulletin request => exact hquiet (handleGetBulletin_reads request) hrun
  | sendMessage value =>
    change (handleSendMessage stores clock callsign value).run t = (outcome, t') at hrun
    rw [handleSendMessage] at hrun
    split at hrun
    · exact hnothing hrun rfl
    rw [withCallsign] at hrun
    split at hrun
    · next author _ =>
      rcases haccept : (acceptMessage author value.recipient value.body value.createdAt none []
        clock).run t with ⟨result, t₁⟩
      have hcall : (⟨author, value.recipient, value.body, value.createdAt, none, [],
        clock⟩ : SendCall).accept.run t = (result, t₁) := haccept
      have haccepted := SendCall.accept_accepted h hcall
      rcases result with e | ⟨acceptance, event⟩
      · -- What is caught or raised again leaves the database as the call did.
        obtain rfl : t₁ = t := by
          cases haccepted with
          | nothing same => exact same
        rw [run_catchError_of_error (run_bind_of_error haccept _)] at hrun
        split at hrun
        · exact hnothing hrun rfl
        · split at hrun
          · exact hnothing hrun rfl
          · exact hnothing hrun rfl
      · rw [run_catchError_of_ok (run_bind_of_ok haccept _)] at hrun
        obtain ⟨rfl, rfl⟩ := Prod.mk.inj hrun
        exact ⟨event, haccepted, rfl⟩
    · split at hrun
      · exact hnothing hrun rfl
      · exact hnothing hrun rfl
  | _ => exact hnothing hrun rfl

end Tables

namespace Tcp

/-! ### The registry -/

namespace TCPServer

variable {server : TCPServer} {message : Message} {frame : Bytes}

/-- A frame for each of these connections that is open. -/
def pushAll (frame : Bytes) (ks : List ℕ) (server : TCPServer) : TCPServer :=
  { server with connections := fun k =>
      if k ∈ ks ∧ (server.connections k).closing = false then
        { server.connections k with written := (server.connections k).written ++ [.push frame] }
      else server.connections k }

/-- A frame for each open session of a callsign. -/
def push (callsign : Str) (frame : Bytes) (server : TCPServer) : TCPServer :=
  server.pushAll frame (server.activeFor callsign)

theorem nodup_activeFor (callsign : Str) (server : TCPServer) :
    (server.activeFor callsign).Nodup :=
  server.sessions.nodup_keys.sublist (List.filter_sublist.map Prod.fst)

theorem deliver_run (hframe : encodeFrame (.message message) true = .ok frame) (k : ℕ)
    (server : TCPServer) : ∃ delivered,
      (deliver message k).run server = (.ok delivered, server.pushAll frame [k]) := by
  rw [deliver, run_get_bind]
  by_cases hclosing : (server.connections k).closing = true
  · refine ⟨false, ?_⟩
    rw [if_pos hclosing, run_pure, pushAll]
    have hsame : (fun j => if j ∈ [k] ∧ (server.connections j).closing = false then
        { server.connections j with written := (server.connections j).written ++ [.push frame] }
      else server.connections j) = server.connections := by
      funext j
      refine if_neg ?_
      rintro ⟨hj, hopen⟩
      rw [List.mem_singleton.mp hj, hclosing] at hopen
      cases hopen
    rw [hsame]
  · refine ⟨true, ?_⟩
    rw [if_neg hclosing, hframe, run_ofExcept_ok_bind, run_modify_bind, run_pure, pushAll, update]
    have hwrites : Function.update server.connections k { server.connections k with
        written := (server.connections k).written ++ [.push frame] } =
      fun j => if j ∈ [k] ∧ (server.connections j).closing = false then
        { server.connections j with written := (server.connections j).written ++ [.push frame] }
      else server.connections j := by
      funext j
      by_cases hj : j = k
      · subst hj
        simp [hclosing]
      · simp [hj]
    rw [hwrites]

theorem pushAll_pushAll {k : ℕ} {ks : List ℕ} (hk : k ∉ ks) :
    (server.pushAll frame [k]).pushAll frame ks = server.pushAll frame (k :: ks) := by
  have hconnections : ((server.pushAll frame [k]).pushAll frame ks).connections =
      (server.pushAll frame (k :: ks)).connections := by
    funext j
    by_cases hj : j = k
    · subst hj
      simp [pushAll, hk]
    · simp [pushAll, hj]
  rw [pushAll, pushAll, TCPServer.mk.injEq]
  exact ⟨hconnections, rfl⟩

theorem deliverAll_run (hframe : encodeFrame (.message message) true = .ok frame) {ks : List ℕ}
    (hnodup : ks.Nodup) (server : TCPServer) : ∃ delivered,
      (deliverAll message ks).run server = (.ok delivered, server.pushAll frame ks) := by
  induction ks generalizing server with
  | nil => exact ⟨0, rfl⟩
  | cons k ks ih =>
    obtain ⟨hk, hks⟩ := List.nodup_cons.mp hnodup
    obtain ⟨first, hfirst⟩ := deliver_run hframe k server
    obtain ⟨others, hothers⟩ := ih hks (server.pushAll frame [k])
    refine ⟨(if first then 1 else 0) + others, ?_⟩
    rw [deliverAll, run_bind_of_ok hfirst, run_bind_of_ok hothers, pushAll_pushAll hk]
    rfl

/-- The registry writes a message to each open session of its recipient. -/
theorem deliverMessage_run (hframe : encodeFrame (.message message) true = .ok frame)
    (server : TCPServer) : ∃ delivered,
      (deliverMessage message).run server =
        (.ok delivered, server.push message.recipient frame) :=
  deliverAll_run hframe (nodup_activeFor message.recipient server) server

end TCPServer

/-! ### The listeners -/

section Announce

variable {ω : Type} {setup : TCPSetup ω} {node node' : TCPNode ω} {event : Message}
  {frame : Bytes}

theorem publish_append {α : Type} (listeners listeners' : List (Listener α)) (index : ℕ)
    (node : Node α) : Node.publish index (listeners ++ listeners') event node =
      Node.publish (index + listeners.length) listeners' event
        (Node.publish index listeners event node) := by
  induction listeners generalizing index node with
  | nil => rfl
  | cons listener listeners ih =>
    rw [List.cons_append, Node.publish, ih, Node.publish, List.length_cons]
    congr 1
    omega

/-- The other listeners leave the server alone. -/
theorem publish_beside (listeners : List (Listener ω)) (index : ℕ) (node : TCPNode ω) :
    (Node.publish index (listeners.map beside) event node).server = node.server := by
  induction listeners generalizing index node with
  | nil => rfl
  | cons listener listeners ih =>
    rw [List.map_cons, Node.publish, ih]
    rfl

theorem publish_announces (hframe : encodeFrame (.message event) true = .ok frame)
    (node : TCPNode ω) :
    (Node.publish 0 setup.listeners event node).server =
      node.server.push event.recipient frame := by
  obtain ⟨delivered, hrun⟩ := TCPServer.deliverMessage_run hframe
    (Node.publish 0 (setup.before.map beside) event node).server
  rw [TCPSetup.listeners, publish_append, Node.publish, publish_beside]
  refine (congrArg Prod.snd hrun).trans ?_
  rw [publish_beside]

/-- The core has stored nothing, or one message that it has announced. -/
inductive Announces (node node' : TCPNode ω) : Prop
  | nothing (same : SameMessages node.tables node'.tables) (server : node'.server = node.server)
  | message {row : (Str × ℕ) × MessageRow} {message : Message} {frame : Bytes}
      (adds : node.tables.Adds node'.tables row message)
      (encoded : encodeFrame (.message message) true = .ok frame)
      (server : node'.server = node.server.push message.recipient frame)

/-- A connection is told of the message, or stays as it is. -/
theorem Announces.connection (h : Announces node node') (k : ℕ) : ∃ pushed,
    node'.connection k =
      { node.connection k with written := (node.connection k).written ++ pushed } ∧
    (pushed = [] ∨ ∃ message frame, encodeFrame (.message message) true = .ok frame ∧
      pushed = [.push frame] ∧ k ∈ node.server.activeFor message.recipient) := by
  rw [Node.connection, Node.connection]
  cases h with
  | nothing _ server =>
    rw [server]
    exact ⟨[], by rw [List.append_nil], .inl rfl⟩
  | @message row message frame _ encoded server =>
    rw [server, TCPServer.push, TCPServer.pushAll]
    dsimp only
    split
    · next hopen => exact ⟨_, rfl, .inr ⟨message, frame, encoded, rfl, hopen.1⟩⟩
    · exact ⟨[], by rw [List.append_nil], .inl rfl⟩

variable (setup) in
/-- Announcing what was accepted. -/
theorem publish_accepted {t : Tables} {accepted : Option Message}
    (h : Accepted node.tables t accepted) :
    Announces node (accepted.toList.foldl
      (fun node event => Node.publish 0 setup.listeners event node)
      { node with tables := t }) := by
  cases h with
  | nothing same =>
    rw [same]
    exact .nothing (.refl _) rfl
  | message adds encoded =>
    obtain ⟨hsame, -⟩ := Node.publish_spec setup.listeners _ 0 { node with tables := t }
    exact .message (adds.trans_same hsame) encoded (publish_announces encoded _)

theorem sendMessage_announces (h : node.tables.Consistent) (call : SendCall) :
    Announces node ((sendMessage setup.listeners call).run node).2 := by
  rcases hrun : call.accept.run node.tables with ⟨outcome, t⟩
  have haccepted := SendCall.accept_accepted h hrun
  rw [sendMessage_run, hrun]
  rcases outcome with e | ⟨acceptance, _ | event⟩
  · exact publish_accepted setup haccepted
  · exact publish_accepted setup haccepted
  · exact publish_accepted setup haccepted

variable (setup) in
theorem handleFrame_announces (h : node.tables.Consistent) (clock : ℤ) (callsign : Str)
    (frame : Bytes) :
    Announces node ((Node.handleFrame setup.listeners clock callsign frame).run node).2 := by
  have hsame : Announces node node := .nothing (.refl _) rfl
  rw [Node.handleFrame, handleFrame]
  split
  · split
    · split
      · exact hsame
      · rw [run_bind_pure, run_ofExcept]
        exact hsame
    · exact hsame
  · next request _ =>
    rw [run_bind]
    rcases hrun : (dispatch ⟨true, true⟩ clock callsign request).run node.tables with ⟨outcome, t⟩
    obtain ⟨accepted, haccepted, hevents⟩ := dispatch_accepted h hrun
    have hannounces := publish_accepted setup haccepted
    rw [Node.run_dispatch, hrun]
    rcases outcome with e | ⟨responses, events⟩
    · rw [← hevents] at hannounces
      exact hannounces
    · obtain rfl : events = accepted.toList := hevents
      dsimp only
      rw [run_ofExcept]
      exact hannounces

end Announce

end Tcp

end OpenQSP
