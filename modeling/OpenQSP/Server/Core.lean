import OpenQSP.Protocol.RoundTrip
import OpenQSP.Storage.Messages

/-!
# The server core

Decoding a request frame, dispatching it to a handler and encoding the responses. Transports
supply a verified callsign and one complete frame.

Every private message enters through `acceptMessage`: it validates, stores, and, when this call
created the message, also returns the event that the message listeners are to be told about.

`handleFrame` is generic in the state and takes the dispatcher as an argument: a transport whose
own state a listener may change runs it on that state.

## Main definitions

* `validateSend`, `acceptMessage` — the shared part of `ServerCore.send_message`
* `dispatch` — the handlers of the six client requests
* `decodeErrorResponse`, `handleFrame`
-/

namespace OpenQSP

/-- One durable acceptance, and whether this call created the message. -/
structure MessageAcceptance where
  message : StoredMessage
  created : Bool
  deriving DecidableEq

/-- Which stores were injected. -/
structure Stores where
  messages : Bool
  bulletins : Bool

/-! ### Accepting a message -/

/-- The validation of `send_message`. The codec is the canonical validator of a message. -/
def validateSend (author recipient body : Str) (createdAt : ℤ) : Py Unit := do
  let _ ← validateCallsign author "author"
  let _ ← validateCallsign recipient "recipient"
  let _ ← encodeFrame (.sendMessage ⟨createdAt, recipient, body⟩) false

/-- The event that listeners receive for a new message. -/
def messageEvent (stored : StoredMessage) (t : Tables) : Py Message := do
  let conversationSequence ← conversationSequence stored t
  return ⟨stored.sequence, conversationSequence, stored.createdAt, stored.author, stored.recipient,
    stored.body⟩

/-- Store a validated message and read it back. -/
def storeAccepted (author recipient body : Str) (createdAt : ℤ) (idempotencyKey : Option Str)
    (requestHash : Str) (clock : ℤ) : Method PyError Tables MessageAcceptance :=
  match idempotencyKey with
  | none => do
    let sequence ← storeMessage createdAt author recipient body clock []
    let stored ← Method.ofExcept (getMessage recipient sequence (← get))
    match stored with
    | none => Method.raise ⟨.assertionError, ""⟩
    | some stored => return ⟨stored, true⟩
  | some key => do
    let (stored, created) ← storeMessageIdempotent createdAt author recipient body (some key)
      requestHash clock []
    return ⟨stored, created⟩

/-- `ServerCore.send_message` up to the call of the listeners: the acceptance, and the event when
this call created the message. -/
def acceptMessage (author recipient body : Str) (createdAt : ℤ) (idempotencyKey : Option Str)
    (requestHash : Str) (clock : ℤ) :
    Method PyError Tables (MessageAcceptance × Option Message) := do
  Method.ofExcept (validateSend author recipient body createdAt)
  let acceptance ← storeAccepted author recipient body createdAt idempotencyKey requestHash clock
  if acceptance.created then
    let event ← Method.ofExcept (messageEvent acceptance.message (← get))
    return (acceptance, some event)
  else
    return (acceptance, none)

/-! ### Handlers -/

/-- One `ERROR` response. -/
def errorResponse (operation : Operation) (code : ErrorCode) (detail : String) : ProtocolObject :=
  .error ⟨some operation, code, str detail⟩

/-- The handlers turn an invalid authenticated callsign into `UNAUTHORIZED`. -/
def withCallsign {α : Type} (callsign : Str) (unauthorized : α)
    (handler : Str → Method PyError Tables α) : Method PyError Tables α :=
  match validateCallsign callsign "authenticated_callsign" with
  | .ok callsign => handler callsign
  | .error e => if e.isA .invalidFieldError then pure unauthorized else Method.raise e

/-- The handler of `SEND_MESSAGE`: its responses and the events for the listeners. -/
def handleSendMessage (stores : Stores) (clock : ℤ) (callsign : Str) (request : SendMessage) :
    Method PyError Tables (List ProtocolObject × List Message) :=
  if ¬stores.messages then
    pure ([errorResponse .sendMessage .busy "message store unavailable"], [])
  else withCallsign callsign
    ([errorResponse .sendMessage .unauthorized "invalid authenticated callsign"], []) fun author =>
    Method.catchError
      (do
        let (_, event) ← acceptMessage author request.recipient request.body request.createdAt none
          [] clock
        return ([.stored], event.toList))
      fun e =>
        if e.isA .sequenceExhaustedError then
          pure ([errorResponse .sendMessage .busy "message storage exhausted"], [])
        else if e.isA .storageIntegrityError then
          pure ([errorResponse .sendMessage .internalError "message storage integrity failure"], [])
        else Method.raise e

/-- Turn what a page query raises into one response. -/
def pageError (operation : Operation) (name : String) (e : PyError) : Py (List ProtocolObject) :=
  if e.isA .invalidCursorError then
    .ok [errorResponse operation .invalidCursor ("invalid " ++ name ++ " cursor")]
  else if e.isA .storageIntegrityError then
    .ok [errorResponse operation .internalError (name ++ " storage integrity failure")]
  else .error e

def handleGetNewMessages (stores : Stores) (callsign : Str) (request : GetNewMessages) :
    Method PyError Tables (List ProtocolObject) :=
  if ¬stores.messages then
    pure [errorResponse .getNewMessages .busy "message store unavailable"]
  else withCallsign callsign
    [errorResponse .getNewMessages .unauthorized "invalid authenticated callsign"]
    fun callsign => do
    let t ← get
    match getNewMessages callsign request.since request.max t with
    | .error e => Method.ofExcept (pageError .getNewMessages "message" e)
    | .ok page => do
      let messages ← Method.ofExcept (page.messages.mapM fun stored => messageEvent stored t)
      return messages.map .message ++
        [.end ⟨.getNewMessages, page.messages.length, page.nextSince, page.hasMore⟩]

def handleGetNewBulletins (stores : Stores) (callsign : Str) (request : GetNewBulletins) :
    Method PyError Tables (List ProtocolObject) :=
  if ¬stores.bulletins then
    pure [errorResponse .getNewBulletins .busy "bulletin store unavailable"]
  else withCallsign callsign
    [errorResponse .getNewBulletins .unauthorized "invalid authenticated callsign"] fun _ => do
    let t ← get
    match getNewBulletins request.since request.max t with
    | .error e => Method.ofExcept (pageError .getNewBulletins "bulletin" e)
    | .ok page =>
      return page.headers.map (fun header => .bulletinHeader
          ⟨header.sequence, header.createdAt, header.author, header.title⟩) ++
        [.end ⟨.getNewBulletins, page.headers.length, page.nextSince, page.hasMore⟩]

def handleGetBulletin (stores : Stores) (callsign : Str) (request : GetBulletin) :
    Method PyError Tables (List ProtocolObject) :=
  if ¬stores.bulletins then
    pure [errorResponse .getBulletin .busy "bulletin store unavailable"]
  else withCallsign callsign
    [errorResponse .getBulletin .unauthorized "invalid authenticated callsign"] fun _ => do
    let t ← get
    match getBulletin request.sequence t with
    | .error e =>
      if e.isA .storageIntegrityError then
        return [errorResponse .getBulletin .internalError "bulletin storage integrity failure"]
      else Method.raise e
    | .ok none => return [errorResponse .getBulletin .notFound "bulletin not found"]
    | .ok (some bulletin) =>
      return [.bulletin ⟨bulletin.sequence, bulletin.createdAt, bulletin.author, bulletin.title,
        bulletin.body⟩]

/-- The point lookup of `get_message_core`. -/
def handleGetMessage (stores : Stores) (callsign : Str) (request : GetMessage) :
    Method PyError Tables (List ProtocolObject) :=
  let unauthorized := [errorResponse .getMessage .unauthorized "invalid callsign"]
  if ¬stores.messages then
    pure [errorResponse .getMessage .busy "message store unavailable"]
  else withCallsign callsign unauthorized fun recipient =>
    match validateCallsign request.peer "peer" with
    | .error e => if e.isA .invalidFieldError then pure unauthorized else Method.raise e
    | .ok peer => do
      let t ← get
      match getConversationMessage recipient peer request.conversationSequence t with
      | .error e =>
        if e.isA .storageIntegrityError ∨ e.isA .valueError then
          return [errorResponse .getMessage .internalError "message storage integrity failure"]
        else Method.raise e
      | .ok none => return [errorResponse .getMessage .notFound "message not found"]
      | .ok (some stored) =>
        return [.message ⟨stored.sequence, request.conversationSequence, stored.createdAt,
          stored.author, stored.recipient, stored.body⟩]

/-- `ServerCore._dispatch`: the responses of a request and the events for the listeners. -/
def dispatch (stores : Stores) (clock : ℤ) (callsign : Str) (request : ProtocolObject) :
    Method PyError Tables (List ProtocolObject × List Message) :=
  let quiet (m : Method PyError Tables (List ProtocolObject)) :
      Method PyError Tables (List ProtocolObject × List Message) := do return (← m, [])
  match request with
  | .getMessage request => quiet (handleGetMessage stores callsign request)
  | .sendMessage request => handleSendMessage stores clock callsign request
  | .getNewMessages request => quiet (handleGetNewMessages stores callsign request)
  | .getNewBulletins request => quiet (handleGetNewBulletins stores callsign request)
  | .getBulletin request => quiet (handleGetBulletin stores callsign request)
  | .getCapabilities =>
    return ([.capabilities ⟨protocolVersion.toNat, implementedCapabilities⟩], [])
  | request => return ([.error ⟨some request.operation, .unknownOperation,
      str "operation is not a client request"⟩], [])

/-! ### Frames -/

/-- The response to a frame that could not be decoded; a frame too short to carry a header gets
none. -/
def decodeErrorResponse (frame : Bytes) (e : PyError) : Option Error :=
  if frame.length < 4 then none
  else
    let operation := if frame.getD 0 0 = 1 then Operation.ofCode (frame.getD 1 0) else none
    let detail := (str e.text).take 64
    if e.isA .unsupportedVersionError then some ⟨none, .unsupportedVersion, detail⟩
    else if e.isA .unknownOperationError then some ⟨none, .unknownOperation, detail⟩
    else if e.isA .invalidFieldError ∧ frame.getD 2 0 ≠ 0 then
      some ⟨operation, .invalidFrame, detail⟩
    else if e.isA .invalidFieldError then some ⟨operation, .invalidField, detail⟩
    else some ⟨operation, .invalidFrame, detail⟩

/-- `ServerCore.handle_frame`: decode one request frame, dispatch it, and encode the responses. -/
def handleFrame {σ : Type} (dispatch : Str → ProtocolObject →
    Method PyError σ (List ProtocolObject))
    (callsign : Str) (frame : Bytes) : Method PyError σ (List Bytes) :=
  match decodeFrame frame with
  | .error e =>
    if e.isA .protocolDecodeError ∨ e.isA .invalidFieldError then
      match decodeErrorResponse frame e with
      | none => pure []
      | some response => do return [← Method.ofExcept (encodeFrame (.error response) false)]
    else Method.raise e
  | .ok request => do
    let responses ← dispatch callsign request
    Method.ofExcept (responses.mapM fun response => encodeFrame response false)

/-- `handleFrame` returns the encoded responses of the dispatcher, or an `ERROR` about the frame. -/
theorem handleFrame_eq_ok {σ : Type}
    {dispatch : Str → ProtocolObject → Method PyError σ (List ProtocolObject)} {callsign : Str}
    {frame : Bytes} {s : σ} {frames : List Bytes}
    (h : ((handleFrame dispatch callsign frame).run s).1 = .ok frames) :
    (∃ request responses, decodeFrame frame = .ok request ∧
      (dispatch callsign request).run s =
        (.ok responses, ((handleFrame dispatch callsign frame).run s).2) ∧
      List.Forall₂ (fun response data => encodeFrame response false = .ok data) responses frames) ∨
    ((∀ request, decodeFrame frame ≠ .ok request) ∧ ∃ errors : List Error,
      List.Forall₂ (fun response data => encodeFrame response false = .ok data)
        (errors.map .error) frames) := by
  rw [handleFrame] at h ⊢
  split at h
  · next e he =>
    refine .inr ⟨fun request hrequest => (nomatch he.symm.trans hrequest), ?_⟩
    by_cases hcaught : e.isA .protocolDecodeError ∨ e.isA .invalidFieldError
    · rw [if_pos hcaught] at h
      split at h
      · obtain rfl := Except.ok.inj h
        exact ⟨[], .nil⟩
      · next response _ =>
        cases hencode : encodeFrame (.error response) false with
        | error e => rw [hencode] at h; cases h
        | ok data =>
          rw [hencode] at h
          obtain rfl := Except.ok.inj h
          exact ⟨[response], .cons hencode .nil⟩
    · rw [if_neg hcaught] at h
      cases h
  · next request hrequest =>
    rw [Method.run_bind] at h ⊢
    rcases hrun : (dispatch callsign request).run s with ⟨e | responses, s'⟩
    · rw [hrun] at h
      cases h
    · rw [hrun] at h
      dsimp only at h ⊢
      rw [Method.run_ofExcept] at h ⊢
      exact .inl ⟨request, responses, hrequest, hrun, Py.mapM_eq_ok.mp h⟩

/-- What `handleFrame` returns are encoded responses. -/
theorem handleFrame_responses {σ : Type}
    {dispatch : Str → ProtocolObject → Method PyError σ (List ProtocolObject)} {callsign : Str}
    {frame : Bytes} {s : σ} {frames : List Bytes}
    (h : ((handleFrame dispatch callsign frame).run s).1 = .ok frames) :
    ∃ responses, List.Forall₂ (fun response data => encodeFrame response false = .ok data)
      responses frames := by
  rcases handleFrame_eq_ok h with ⟨_, responses, -, -, h⟩ | ⟨-, errors, h⟩
  · exact ⟨responses, h⟩
  · exact ⟨errors.map .error, h⟩

/-- A client decodes every response. -/
theorem decodeFrame_of_mem_responses {responses : List ProtocolObject} {frames : List Bytes}
    (h : List.Forall₂ (fun response data => encodeFrame response false = .ok data) responses
      frames) {data : Bytes} (hdata : data ∈ frames) :
    ∃ response ∈ responses, decodeFrame data = .ok response := by
  obtain ⟨response, hmem, hencode⟩ := Py.exists_of_mem_forall₂ h hdata
  exact ⟨response, hmem, decodeFrame_of_encodeFrame hencode⟩

end OpenQSP
