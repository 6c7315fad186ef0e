import OpenQSP.Api.EventHub
import OpenQSP.Api.Sync
import OpenQSP.Server.Acceptance
import OpenQSP.Storage.Accounts
import OpenQSP.Storage.Reads

/-!
# The Internet API

The endpoints of the HTTP API, but for the WebSocket. A request carries an access token, which says
for which callsign it is made; a login with callsign and password returns one. Cursors are tokens of
the same signer, told apart by their kind. A request that was answered is noted as the last valid
communication of its callsign.

A request is one step. The texts of times and the framework around the handlers are left out: a
handler returns a response or raises. So is the event of `mark_read`, which only notifies the peer.

## Main definitions

* `Payload`, `TokenSigner`, `APISetup.identity`, `APISetup.user` — tokens
* `messageId`, `parseMessageId` — the identifier of a message
* `APISetup.login`, `APISetup.serve` — the handlers
* `Input`, `step`, `serverAfter` — a run of the API, beside the other transports
-/

namespace OpenQSP

/-! ### Identifiers -/

/-- `binascii.a2b_base64`, after the digits that were read and the padding behind them. What is no
digit is passed over, and the padding that completes a group ends the text. -/
def a2bBase64 : Str → Str → ℕ → Py Bytes
  | [], digits, _ => do
    raiseIf (digits.length % 4 ≠ 0) ⟨.valueError, "Incorrect padding"⟩
    return base64Decode (digits.map urlSafeDigit)
  | c :: text, digits, pads =>
    if c.code = 61 then
      if digits.length % 4 < 2 then a2bBase64 text digits pads
      else if 4 ≤ digits.length % 4 + (pads + 1) then
        return base64Decode (digits.map urlSafeDigit)
      else a2bBase64 text digits (pads + 1)
    else if c.isStandardBase64 then a2bBase64 text (digits ++ [c]) 0
    else a2bBase64 text digits pads

/-- `_unb64` -/
def unb64 (value : Str) : Py Bytes := do
  raiseIf (value.any fun c => 128 ≤ c.code)
    ⟨.valueError, "string argument should contain only ASCII characters"⟩
  let padded := value ++ List.replicate ((4 - value.length % 4) % 4) (.scalar '=')
  a2bBase64 (padded.map standardDigit) [] 0

/-- The decimal digits of a number. -/
def decimalDigits (n : ℕ) : Str := (Nat.toDigits 10 n).map .scalar

/-- `_message_id` -/
def messageId (recipient : Str) (sequence : ℕ) : Py Str := do
  return base64Encode (← encodeBody (recipient ++ .scalar ':' :: decimalDigits sequence))

/-- `text.rsplit(":", 1)`, when there are two parts. -/
def splitLastColon (text : Str) : Option (Str × Str) :=
  match (text.reverse.dropWhile (·.code ≠ 58)).reverse with
  | [] => none
  | front => some (front.dropLast, text.drop front.length)

/-- `int(text)`. Only what it makes of ASCII text is fixed; Python limits the number of digits. -/
structure IntegerSyntax where
  int : Str → Py ℤ
  int_ascii : ∀ text : Str, text.length ≤ 4300 → (∀ c ∈ text, c.code < 128) →
    int text = parseInt text

namespace Api

def notFound : APIError := ⟨404, "not_found", "Message not found."⟩

def invalidToken : APIError := ⟨401, "invalid_token", "Invalid or expired access token."⟩

def authenticationRequired : APIError := ⟨401, "invalid_token", "Authentication required."⟩

def rejectedCredentials : APIError := ⟨401, "invalid_credentials", "Invalid callsign or password."⟩

/-- How a handler fails: with an `APIError`, that may have details, or with an exception that the
framework answers with status 500. -/
inductive Failure
  | api (error : APIError) (details : List (String × Str))
  | unexpected (e : PyError)
  deriving DecidableEq

abbrev Reply := Except Failure

def fail {α : Type} (error : APIError) : Reply α := .error (.api error [])

def invalidRequest {α : Type} (field : String) (detail : Str) : Reply α :=
  .error (.api ⟨422, "validation_error", "Invalid request."⟩ [(field, detail)])

def ofPy {α : Type} (x : Py α) : Reply α := x.mapError .unexpected

def ofApi {α : Type} (x : Except APIError α) : Reply α := x.mapError (.api · [])

/-- `_parse_message_id` -/
def parseMessageId (integers : IntegerSyntax) (value : Str) : Reply (Str × ℤ) :=
  let parsed : Py (Str × ℤ) := do
    let data ← unb64 value
    let text ← match decodeUtf8 data with
      | some text => pure text
      | none => .error ⟨.unicodeDecodeError, ""⟩
    match splitLastColon text with
    | none => .error ⟨.valueError, "not enough values to unpack"⟩
    | some (recipient, sequence) => return (recipient, ← integers.int sequence)
  match parsed with
  | .ok result => .ok result
  | .error e => if e.isA .valueError then fail notFound else .error (.unexpected e)

/-! ### Tokens -/

/-- The payload of a token. -/
structure Payload where
  kind : String
  sub : Str
  seq : Option ℤ
  exp : Option ℤ
  deriving DecidableEq

/-- `Signer.sign` and `Signer.read`, for tokens of a type `τ`. -/
structure TokenSigner (τ : Type) where
  sign : Payload → τ
  read : τ → Option Payload
  /-- A token that was signed is read back. -/
  read_sign : ∀ payload, read (sign payload) = some payload

namespace TokenSigner

variable {τ : Type} (signer : TokenSigner τ)

/-- Reading a token as a cursor; `seq` must be a number. -/
def readCursor (token : τ) : Option CursorClaims :=
  (signer.read token).bind fun data => data.seq.map fun seq => ⟨data.kind, data.sub, seq⟩

def signCursor (claims : CursorClaims) : τ :=
  signer.sign ⟨claims.kind, claims.sub, some claims.seq, none⟩

theorem readCursor_signCursor (claims : CursorClaims) :
    signer.readCursor (signer.signCursor claims) = some claims := by
  simp [readCursor, signCursor, signer.read_sign]

/-- The signer, as far as cursors go. -/
def cursors : Signer τ := ⟨signer.signCursor, signer.readCursor, signer.readCursor_signCursor⟩

end TokenSigner

/-! ### Requests and responses -/

/-- `_message`, with the times as numbers. -/
structure APIMessage where
  id : Str
  sender : Str
  recipient : Str
  body : Str
  createdAt : ℕ
  deliveryStatus : MessageState
  deliveredAt : Option ℕ
  deriving DecidableEq

structure APIConversation where
  peer : Str
  lastMessage : APIMessage
  unreadCount : ℕ
  lastReadSequence : ℕ
  deriving DecidableEq

inductive Request (τ : Type)
  | me
  | send (recipient body idempotencyKey : Str)
  | listMessages (limit : ℤ) (cursor : Option τ) (peer : Option Str)
  | getMessage (messageId : Str)
  | conversations
  | markRead (peer : Str)
  /-- Between the two reads of the handler other transports may send messages. -/
  | sync (cursor : Option τ) (meanwhile : List SendCall)

inductive Response (τ : Type)
  | me (callsign : Str)
  | message (message : APIMessage)
  | page (messages : List APIMessage) (nextCursor : Option τ)
  | conversations (list : List APIConversation)
  | read (peer : Str) (lastReadSequence : ℕ)
  | synced (messages : List APIMessage) (cursor : τ)
  deriving DecidableEq

/-- A request, with the clock of the server. -/
structure APICall (τ : Type) where
  credentials : Option τ
  request : Request τ
  now : ℤ

/-- A login, or a request, with how it ended. -/
inductive APIExchange (τ : Type)
  | login (callsign password : Str) (now : ℤ) (result : Reply (τ × Str))
  | request (call : APICall τ) (result : Reply (Response τ))

/-! ### The handlers -/

/-- What the API is made with. -/
structure APISetup (ω τ : Type) where
  signer : TokenSigner τ
  lifetime : ℤ
  store : AccountStore
  integers : IntegerSyntax
  /-- The digest of the recipient and the body. -/
  digest : Str → Str → Str
  listeners : List (Listener ω)

/-- The node with its accounts and read cursors, and the WebSockets with the presence registry. A
socket is a number. -/
structure APINode (ω τ : Type) where
  node : Node ω
  conversationReads : OrderedDict (Str × Str) ℕ
  accounts : Accounts
  sockets : HubSystem ℕ
  /-- What was asked and answered. No code reads it. -/
  exchanges : List (APIExchange τ)

section Handlers

variable {ω τ : Type}

def APINode.database (s : APINode ω τ) : Database := ⟨s.node.tables, s.conversationReads⟩

/-- `project` -/
def project (d : Database) (value : StoredMessage) : Py APIMessage := do
  let (status, deliveredAt) ← d.messageState value
  let id ← messageId value.recipient value.sequence
  return ⟨id, value.author, value.recipient, value.body, value.createdAt, status, deliveredAt⟩

/-- `MessageStore.api_list` -/
def apiListWith (callsign : Str) (after : ℤ) (limit : ℕ) (peer : Option Str) (t : Tables) :
    Py (List StoredMessage × Bool) :=
  match peer with
  | none => apiList callsign after limit t
  | some peer => do
    let callsign ← bindText callsign
    let after ← bindInteger after
    let peer ← bindText peer
    let rows := ((t.messages.entries.filter fun e =>
        ((e.2.author = callsign || e.1.1 = callsign) && after < (e.2.apiSequence : ℤ)) &&
          (e.2.author = callsign && e.1.1 = peer || e.2.author = peer && e.1.1 = callsign)
        ).insertionSort fun e e' => e.2.apiSequence ≤ e'.2.apiSequence).take (limit + 1)
    let messages ← (rows.take limit).mapM storedMessage
    return (messages, decide (limit < rows.length))

namespace APISetup

variable (api : APISetup ω τ)

/-- `Signer.access` -/
def access (callsign : Str) (now : ℤ) : τ :=
  api.signer.sign ⟨"access", callsign, none, some (now + api.lifetime)⟩

/-- `Signer.identity` -/
def identity (token : τ) (now : ℤ) : Except APIError Str :=
  match api.signer.read token with
  | none => .error invalidToken
  | some data =>
    if data.kind ≠ "access" then .error invalidToken
    else if data.exp.getD 0 < now then .error invalidToken
    else .ok data.sub

/-- `user` -/
def user (credentials : Option τ) (now : ℤ) : Reply Str :=
  match credentials with
  | none => fail authenticationRequired
  | some token => ofApi (api.identity token now)

/-- `login` -/
def login (callsign password : Str) (now : ℤ) (accounts : Accounts) : Reply (τ × Str) :=
  match api.store.authenticate callsign password accounts with
  | .ok callsign => .ok (api.access callsign now, callsign)
  | .error e =>
    if e.isA .invalidCredentialsError then fail rejectedCredentials else .error (.unexpected e)

def normalizeCallsign (value : Str) : Py Str := api.store.unicode.normalizeCallsign value "callsign"

/-- What `send_message` raises. Only a body that is too long has a code of its own. -/
def sendFailure (e : PyError) : Failure :=
  if e.isA .invalidFieldError then
    .api ⟨422, if e.isA .fieldTooLongError ∧
        e.text = lengthText "body" minMessageBodyLength maxMessageBodyLength then
      "message_too_long" else "validation_error", "Invalid request."⟩ [("request", str e.text)]
  else if e.isA .idempotencyConflictError then
    .api ⟨409, "conflict", "Idempotency key was used for a different request."⟩ []
  else .unexpected e

/-- The call of `send_message` that a request makes. -/
def sendCall (callsign recipient body idempotencyKey : Str) (now : ℤ) : Reply SendCall :=
  match api.normalizeCallsign recipient with
  | .error e =>
    if e.isA .invalidFieldError then invalidRequest "to" (str e.text) else .error (.unexpected e)
  | .ok recipient =>
    -- The recipient is the normalized one from here on.
    if ¬(1 ≤ idempotencyKey.length ∧ idempotencyKey.length ≤ 128) then
      invalidRequest "Idempotency-Key" (str "Must contain 1 to 128 characters.")
    else .ok ⟨callsign, recipient, body, now, some idempotencyKey, api.digest recipient body, now⟩

/-- `send` -/
def send (callsign recipient body idempotencyKey : Str) (now : ℤ) (s : APINode ω τ) :
    Reply (Response τ) × APINode ω τ :=
  match api.sendCall callsign recipient body idempotencyKey now with
  | .error e => (.error e, s)
  | .ok sendCall =>
    let after := (sendMessage api.listeners sendCall).run s.node
    let later := { s with node := after.2 }
    (match after.1 with
      | .error e => .error (sendFailure e)
      | .ok acceptance => ofPy ((project later.database acceptance.message).map .message), later)

/-- The peer of a request, when there is one. -/
def peer : Option Str → Reply (Option Str)
  | none => .ok none
  | some value =>
    match api.normalizeCallsign value with
    | .ok peer => .ok (some peer)
    | .error e =>
      if e.isA .invalidFieldError then invalidRequest "with" (str "Invalid callsign.")
      else .error (.unexpected e)

/-- Where a page continues. -/
def after (cursor : Option τ) (callsign : Str) (kind : String) : Reply ℤ :=
  match cursor with
  | none => .ok 0
  | some token => ofApi (api.signer.cursors.cursorValue token callsign kind)

/-- `list_messages` -/
def listMessages (callsign : Str) (limit : ℤ) (cursor : Option τ) (peer : Option Str)
    (d : Database) : Reply (Response τ) := do
  if ¬(1 ≤ limit ∧ limit ≤ 200) then invalidRequest "query.limit" []
  else
    let after ← api.after cursor callsign "page"
    let peer ← api.peer peer
    let (values, more) ← ofPy (apiListWith callsign after limit.toNat peer d.toTables)
    let nextCursor := if more then values.getLast?.map fun last =>
      api.signer.cursors.cursor callsign last.apiSequence "page" else none
    let messages ← ofPy (values.mapM (project d))
    return .page messages nextCursor

/-- `get_message` -/
def getMessage (callsign : Str) (id : Str) (d : Database) : Reply (Response τ) := do
  let (recipient, sequence) ← parseMessageId api.integers id
  let value ← ofPy (OpenQSP.getMessage recipient sequence d.toTables)
  match value with
  | none => fail notFound
  | some value =>
    if callsign ≠ value.author ∧ callsign ≠ value.recipient then fail notFound
    else return .message (← ofPy (project d value))

/-- `conversations` -/
def conversations (callsign : Str) (d : Database) : Reply (Response τ) := do
  let list ← ofPy (d.conversations callsign)
  let summaries ← ofPy (list.mapM fun item => do
    return (⟨item.peer, ← project d item.lastMessage, item.unreadCount,
      item.lastReadSequence⟩ : APIConversation))
  return .conversations summaries

/-- `mark_read` -/
def markRead (callsign : Str) (peer : Str) (s : APINode ω τ) :
    Reply (Response τ) × APINode ω τ :=
  match api.normalizeCallsign peer with
  | .error e =>
    (if e.isA .invalidFieldError then
      fail ⟨422, "validation_error", "Invalid peer callsign."⟩ else .error (.unexpected e), s)
  | .ok normalized =>
    let after := (Database.advanceConversationRead callsign normalized []).run s.database
    (ofPy (after.1.map fun result => .read normalized result.1),
      { s with
        node := { s.node with tables := after.2.toTables }
        conversationReads := after.2.conversationReads })

/-- `sync`, from its second read on. -/
def syncPage (callsign : Str) (after : ℤ) (high : ℕ) (d : Database) : Reply (Response τ) := do
  let (values, _) ← ofPy (apiList callsign after syncLimit d.toTables)
  let position : ℤ := match values.getLast? with
    | some last => last.apiSequence
    | none => high
  let messages ← ofPy (values.mapM (project d))
  return .synced messages (api.signer.cursors.cursor callsign position "sync")

/-- `sync` -/
def sync (callsign : Str) (cursor : Option τ) (meanwhile : List SendCall) (s : APINode ω τ) :
    Reply (Response τ) × APINode ω τ :=
  let later := { s with
    node := meanwhile.foldl
      (fun node call => ((sendMessage api.listeners call).run node).2) s.node }
  match api.after cursor callsign "sync" with
  | .error e => (.error e, later)
  | .ok after =>
    let high := apiHighWater s.node.tables
    if (high : ℤ) < after then (fail invalidCursor, later)
    else (api.syncPage callsign after high later.database, later)

/-- The handler of a request, for a callsign. -/
def serve (callsign : Str) (call : APICall τ) (s : APINode ω τ) :
    Reply (Response τ) × APINode ω τ :=
  match call.request with
  | .me => (.ok (.me callsign), s)
  | .send recipient body idempotencyKey =>
    api.send callsign recipient body idempotencyKey call.now s
  | .listMessages limit cursor peer =>
    (api.listMessages callsign limit cursor peer s.database, s)
  | .getMessage id => (api.getMessage callsign id s.database, s)
  | .conversations => (conversations callsign s.database, s)
  | .markRead peer => api.markRead callsign peer s
  | .sync cursor meanwhile => api.sync callsign cursor meanwhile s

/-- `record_authenticated_activity`: only what was answered with a status of success counts. An
exception takes the place of the response. -/
def recordActivity (callsign : Str) (served : Reply (Response τ) × APINode ω τ) :
    Reply (Response τ) × APINode ω τ :=
  match served.1 with
  | .error e => (.error e, served.2)
  | .ok response =>
    let after := (EventHub.recordInternetActivity callsign).run served.2.sockets.hub
    (match after.1 with
      | .error e => .error (.unexpected e)
      | .ok _ => .ok response,
    { served.2 with sockets := { served.2.sockets with hub := after.2 } })

/-- A request with its token. -/
def respond (call : APICall τ) (s : APINode ω τ) : Reply (Response τ) × APINode ω τ :=
  match api.user call.credentials call.now with
  | .error e => (.error e, s)
  | .ok callsign => recordActivity callsign (api.serve callsign call s)

end APISetup

/-! ### Runs -/

/-- What happens next. -/
inductive Input (τ : Type)
  | login (callsign password : Str) (now : ℤ)
  | request (call : APICall τ)
  /-- Another transport calls `send_message`. -/
  | send (call : SendCall)
  /-- Somebody changes the database, but no message. -/
  | database (change : Tables → Tables) (keeps : ∀ t, SameMessages t (change t))
  | account (callsign password : Str) (salt : Bytes) (now : ℤ)
  /-- A socket comes or goes, or another transport changes the presence registry. -/
  | socket (action : HubAction ℕ)

variable (api : APISetup ω τ)

def step (s : APINode ω τ) : Input τ → APINode ω τ
  | .login callsign password now => { s with
      exchanges := s.exchanges ++
        [.login callsign password now (api.login callsign password now s.accounts)] }
  | .request call =>
    let after := api.respond call s
    { after.2 with exchanges := after.2.exchanges ++ [.request call after.1] }
  | .send call => { s with node := ((sendMessage api.listeners call).run s.node).2 }
  | .database change _ => { s with node := { s.node with tables := change s.node.tables } }
  | .account callsign password salt now => { s with
      accounts := ((api.store.createAccount callsign password salt now).run s.accounts).2 }
  -- What is not possible in this state does not happen.
  | .socket action => { s with sockets := (s.sockets.step action).getD s.sockets }

/-- A node without messages and accounts. -/
def initialNode (outside : ω) : APINode ω τ := ⟨⟨.fresh, outside, []⟩, .empty, .empty, {}, []⟩

/-- The node after the inputs. -/
def serverAfter (outside : ω) (inputs : List (Input τ)) : APINode ω τ :=
  inputs.foldl (step api) (initialNode outside)

end Handlers

end Api

end OpenQSP
