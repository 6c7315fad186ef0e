import OpenQSP.Client.Handshake
import OpenQSP.Client.Reader
import OpenQSP.Server.Synchronization

/-!
# The TCP server

The server has a task for each connection. The task reads a line and answers it; if the line logs
its sender in, it puts a session into the registry, and from then on reads a frame, writes the
responses of the core, and waits until they are sent. New messages are written to the sessions of
their recipient while the core handles whatever request created them, so the task of one connection
writes to others.

One step of the server is what a task does between two `await`s, or what happens outside of it:
bytes arrive, a connection goes down, another transport sends a message. The steps come in any
order. The two `readexactly` of a frame are one wait: nothing sees the header in between.

A connection has one session at most, so its number serves as the identifier of the session.

## Main definitions

* `Connection`, `AuthenticatedSession`, `TCPServer`
* `TCPServer.deliverMessage`, `sessionsListener` — the registry, as a listener of the core
* `serveLine`, `openSession`, `serveFrame`, `finish`, `resume` — the task of a connection
* `Input`, `step`, `serverAfter` — a run of the server
-/

namespace OpenQSP

namespace Tcp

/-! ### The state of the server -/

/-- What the task of a connection waits for. -/
inductive Phase
  /-- `readline`, in `_authenticate` -/
  | authenticating
  /-- `drain`, after the answer to the line -/
  | greeted (callsign : Option Str)
  /-- `readexactly` -/
  | reading (callsign : Str)
  /-- `drain`, after the responses -/
  | draining (callsign : Str)
  /-- The task has ended. -/
  | ended
  deriving DecidableEq

/-- A session that was created. -/
structure Login where
  callsign : Str
  /-- The high-water value of its mailbox at that time. -/
  joined : ℕ
  deriving DecidableEq

/-- A connection: its reader, its writer and its task. No code reads the last four fields. -/
structure Connection where
  phase : Phase
  /-- What has arrived and has not been read. -/
  unread : Bytes
  eof : Bool
  /-- `writer.is_closing()` -/
  closing : Bool
  /-- What is written in answer to the line. -/
  greeting : Bytes
  /-- The frames that are written after it. -/
  written : List Sent
  /-- All that has arrived. -/
  arrived : Bytes
  /-- The line that was read. -/
  line : Bytes
  /-- The frames that were read, with the responses to them; a frame that raised has none. -/
  requests : List (Bytes × List Bytes)
  login : Option Login

/-- Bytes arrive, unless the stream has ended. -/
def Connection.feed (bytes : Bytes) (c : Connection) : Connection :=
  if c.eof then c else { c with unread := c.unread ++ bytes, arrived := c.arrived ++ bytes }

def Connection.new : Connection := ⟨.authenticating, [], false, false, [], [], [], [], [], none⟩

/-- An `AuthenticatedSession`; its `deliver` writes to the connection under whose number it is. -/
structure AuthenticatedSession where
  callsign : Str
  active : Bool

/-- The server. A connection that was not accepted yet is as it will begin. -/
structure TCPServer where
  connections : ℕ → Connection
  sessions : OrderedDict ℕ AuthenticatedSession

namespace TCPServer

def new : TCPServer := ⟨fun _ => .new, .empty⟩

/-- Change one connection. -/
def update (k : ℕ) (f : Connection → Connection) (server : TCPServer) : TCPServer :=
  { server with connections := Function.update server.connections k (f (server.connections k)) }

/-! ### The registry -/

/-- `deliver` of a session. -/
def deliver (message : Message) (k : ℕ) : Method PyError TCPServer Bool := do
  let server ← get
  if (server.connections k).closing then return false
  else
    let frame ← Method.ofExcept (encodeFrame (.message message) true)
    modify (update k fun c => { c with written := c.written ++ [.push frame] })
    return true

/-- `active_for` -/
def activeFor (callsign : Str) (server : TCPServer) : List ℕ :=
  (server.sessions.entries.filter fun e => e.2.active && e.2.callsign = callsign).map Prod.fst

/-- The loop of `deliver_message`. -/
def deliverAll (message : Message) : List ℕ → Method PyError TCPServer ℕ
  | [] => return 0
  | k :: rest => do
    let delivered ← deliver message k
    let others ← deliverAll message rest
    return (if delivered then 1 else 0) + others

/-- `deliver_message` -/
def deliverMessage (message : Message) : Method PyError TCPServer ℕ := do
  deliverAll message ((← get).activeFor message.recipient)

end TCPServer

section Listeners

variable {ω : Type}

/-- The registry as a listener, beside the state of other listeners. -/
def sessionsListener : Listener (TCPServer × ω) where
  notify event := ⟨fun s =>
    let delivered := (TCPServer.deliverMessage event).run s.2.1
    (delivered.1.map fun _ => (), (s.1, delivered.2, s.2.2))⟩
  keeps _ s := SameMessages.refl s.1

/-- A listener that does not know the server. -/
def beside (listener : Listener ω) : Listener (TCPServer × ω) where
  notify event := ⟨fun s =>
    let after := (listener.notify event).run (s.1, s.2.2)
    (after.1, (after.2.1, s.2.1, after.2.2))⟩
  keeps event s := listener.keeps event (s.1, s.2.2)

end Listeners

end Tcp

/-! ### The node -/

section Node

variable {ω : Type}

/-- The server, among the listeners of a node. -/
def Node.server (node : Node (Tcp.TCPServer × ω)) : Tcp.TCPServer := node.outside.1

def Node.connection (node : Node (Tcp.TCPServer × ω)) (k : ℕ) : Tcp.Connection :=
  node.server.connections k

def Node.onServer (f : Tcp.TCPServer → Tcp.TCPServer) (node : Node (Tcp.TCPServer × ω)) :
    Node (Tcp.TCPServer × ω) :=
  { node with outside := (f node.server, node.outside.2) }

end Node

namespace Tcp

/-! ### The task of a connection -/

/-- What a server is made with: `account_store` and `allow_development_auth`, and the listeners of
the core that were added before and after. -/
structure TCPSetup (ω : Type) where
  accountStore : Bool
  allowDevelopmentAuth : Bool
  before : List (Listener ω)
  after : List (Listener ω)

/-- The core, the server, and what the other listeners have. -/
abbrev TCPNode (ω : Type) := Node (TCPServer × ω)

section Task

variable {ω : Type} (setup : TCPSetup ω)

def TCPSetup.listeners : List (Listener (TCPServer × ω)) :=
  setup.before.map beside ++ sessionsListener :: setup.after.map beside

/-- The `finally` of `_handle_client`. -/
def finish (k : ℕ) (node : TCPNode ω) : TCPNode ω :=
  node.onServer fun server =>
    { server with sessions := server.sessions.erase k }.update k fun c =>
      { c with phase := .ended, closing := true }

/-- What `readline` takes off the buffer: a line, whether it is returned or too long. What follows
the newline stays. -/
def firstLine (unread : Bytes) : Bytes := unread.take ((unread.takeWhile (· ≠ 10)).length + 1)

/-- `_authenticate` from the line on. What the account store says about a callsign and a password is
an argument. -/
def serveLine (k : ℕ) (authenticate : Str → Str → Py Str) (node : TCPNode ω) : TCPNode ω :=
  let unread := (node.connection k).unread
  match serverAuthenticate (if setup.accountStore then some authenticate else none)
      setup.allowDevelopmentAuth unread with
  | .error _ => finish k node
  | .ok callsign => node.onServer <| .update k fun c => { c with
      phase := .greeted callsign
      unread := unread.drop (firstLine unread).length
      greeting := handshakeResponse callsign
      line := firstLine unread }

/-- `sessions.create`; the session checks its callsign. -/
def openSession (k : ℕ) (callsign : Str) (node : TCPNode ω) : TCPNode ω :=
  match validateCallsign callsign "callsign" with
  | .error _ => finish k node
  | .ok _ => node.onServer fun server =>
      { server with sessions := server.sessions.set k ⟨callsign, true⟩ }.update k fun c => { c with
        phase := .reading callsign
        login := some ⟨callsign, node.tables.highest callsign⟩ }

/-- One pass of the loop of `_handle_client`, once a frame has arrived. -/
def serveFrame (k : ℕ) (callsign : Str) (frame rest : Bytes) (clock : ℤ) (node : TCPNode ω) :
    TCPNode ω :=
  if maxFrameSize < frame.length then finish k node
  else
    let outcome := (Node.handleFrame setup.listeners clock callsign frame).run
      (node.onServer (.update k fun c => { c with unread := rest }))
    match outcome.1 with
    | .ok responses => outcome.2.onServer (.update k fun c => { c with
        phase := .draining callsign
        written := c.written ++ responses.map .response
        requests := c.requests ++ [(frame, responses)] })
    | .error _ => finish k (outcome.2.onServer (.update k fun c => { c with
        requests := c.requests ++ [(frame, [])] }))

/-- The task goes on, if the call that it waits for has returned. -/
def resume (k : ℕ) (authenticate : Str → Str → Py Str) (clock : ℤ) (node : TCPNode ω) : TCPNode ω :=
  let c := node.connection k
  match c.phase with
  | .authenticating =>
    if 10 ∈ c.unread ∨ maxFrameSize < c.unread.length ∨ c.eof then
      serveLine setup k authenticate node
    else node
  | .greeted none => finish k node
  | .greeted (some callsign) => openSession k callsign node
  | .reading callsign =>
    match nextFrame c.unread with
    | some (frame, rest) => serveFrame setup k callsign frame rest clock node
    | none => if c.eof then finish k node else node
  | .draining callsign => node.onServer (.update k fun c => { c with phase := .reading callsign })
  | .ended => node

/-! ### Runs -/

/-- What happens next. -/
inductive Input
  | data (k : ℕ) (bytes : Bytes)
  /-- The peer will send nothing more. -/
  | eof (k : ℕ)
  /-- The transport of the connection begins to close. -/
  | closing (k : ℕ)
  | resume (k : ℕ) (authenticate : Str → Str → Py Str) (clock : ℤ)
  /-- The call that the task waits for raises `ConnectionError`, or is cancelled. -/
  | fail (k : ℕ)
  /-- Another transport or the API calls `send_message`. -/
  | send (call : SendCall)
  /-- Somebody changes the database, but no message. -/
  | database (change : Tables → Tables) (keeps : ∀ t, SameMessages t (change t))

def step (node : TCPNode ω) : Input → TCPNode ω
  | .data k bytes => node.onServer (.update k (.feed bytes))
  | .eof k => node.onServer (.update k fun c => { c with eof := true })
  | .closing k => node.onServer (.update k fun c => { c with closing := true })
  | .resume k authenticate clock => resume setup k authenticate clock node
  | .fail k => if (node.connection k).phase = .ended then node else finish k node
  | .send call => ((sendMessage setup.listeners call).run node).2
  | .database change _ => { node with tables := change node.tables }

/-- The server after the inputs, on a database that the calls of the stores have made. -/
def serverAfter (calls : List DatabaseCall) (outside : ω) (inputs : List Input) : TCPNode ω :=
  inputs.foldl (step setup) ⟨databaseState calls, (.new, outside), []⟩

end Task

end Tcp

end OpenQSP
