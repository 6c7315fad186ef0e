import OpenQSP.Aprs.Diagnostics
import OpenQSP.Aprs.Disconnection
import OpenQSP.Aprs.Sending

/-!
# The APRS-IS client

The client keeps a connection to the network: it logs in, waits until the server has verified the
login, and from then on hands lines to the adapter and writes what the adapter sends. When the
connection ends it waits and connects again.

One input of the client is what happens at one `await`: a connection attempt, one pass of the loop
of `_connection`, the end of `wait_closed`, a call that another task makes, `stop`. The events of
the client are what the network and the adapter see of it.

## Main definitions

* `APRSISConfig`, `loginLine`, `parseLogresp`
* `Event`, `APRSISClient` — `log` lists the events, it is no field of the source
* `readLine`, `sendAll`, `pass` — one pass of the loop of `_connection`
* `connect`, `closeConnection`, `outcomeAfter`, `attemptEnded`, `retry` — the loop of `run`
* `Input`, `step`, `clientAfter` — a run of the client
-/

namespace OpenQSP

namespace AprsIS

/-! ### The configuration -/

/-- The configuration, with what its constructor checks. -/
structure APRSISConfig where
  passcode : Str
  callsign : Str := str "OPENQSP"
  software : Str := str "OpenQSP"
  version : Str := str "0.1"
  reconnectDelay : ℚ := 5
  reconnectMaxDelay : ℚ := 30
  reconnectJitter : ℚ := 1 / 5
  loginTimeout : ℚ := 10
  idleTimeout : ℚ := 120
  requireVerified : Bool := true
  filter : Option Str := none
  passcode_ne : passcode ≠ []
  callsign_ne : callsign ≠ []
  reconnectDelay_nonneg : 0 ≤ reconnectDelay
  reconnectDelay_le : reconnectDelay ≤ reconnectMaxDelay
  reconnectJitter_mem : 0 ≤ reconnectJitter ∧ reconnectJitter ≤ 1
  loginTimeout_pos : 0 < loginTimeout
  idleTimeout_pos : 0 < idleTimeout

theorem standard_callsign_ne : str "OPENQSP" ≠ [] := by decide

theorem standard_reconnectDelay_nonneg : (0 : ℚ) ≤ 5 := by norm_num

theorem standard_reconnectDelay_le : (5 : ℚ) ≤ 30 := by norm_num

theorem standard_reconnectJitter : (0 : ℚ) ≤ 1 / 5 ∧ (1 / 5 : ℚ) ≤ 1 := by norm_num

theorem standard_loginTimeout_pos : (0 : ℚ) < 10 := by norm_num

theorem standard_idleTimeout_pos : (0 : ℚ) < 120 := by norm_num

/-- The default configuration. -/
def APRSISConfig.standard (passcode : Str) (passcode_ne : passcode ≠ []) : APRSISConfig where
  passcode
  passcode_ne
  callsign_ne := standard_callsign_ne
  reconnectDelay_nonneg := standard_reconnectDelay_nonneg
  reconnectDelay_le := standard_reconnectDelay_le
  reconnectJitter_mem := standard_reconnectJitter
  loginTimeout_pos := standard_loginTimeout_pos
  idleTimeout_pos := standard_idleTimeout_pos

/-- `login_line`; an empty filter counts as none. -/
def loginLine (config : APRSISConfig) : Str :=
  let aprsFilter := (config.filter.filter fun text => text ≠ []).getD (str "g/" ++ config.callsign)
  str "user " ++ config.callsign ++ str " pass " ++ config.passcode ++ str " vers " ++
    config.software ++ str " " ++ config.version ++ str " filter " ++ aprsFilter

/-- `# logresp ([^ ]+) (verified|unverified)(?:,.*)?` in any case, matched completely: the name ends
at its first blank, and the status at its first comma. The case mapping is that of ASCII text. -/
def matchLogresp (line : Str) : Option (Str × Bool) :=
  let rest := line.drop 10
  let name := rest.takeWhile fun c => c.code ≠ 32
  let status := ((rest.drop (name.length + 1)).takeWhile fun c => c.code ≠ 44).map PyChar.upper
  let tail := (rest.drop (name.length + 1)).dropWhile fun c => c.code ≠ 44
  if (line.take 10).map PyChar.upper = str "# LOGRESP " ∧ name ≠ [] ∧
      (rest.drop name.length).take 1 = str " " ∧
      (status = str "VERIFIED" ∨ status = str "UNVERIFIED") ∧ tail.all (fun c => c.code ≠ 10) then
    some (name, status = str "VERIFIED")
  else none

/-- `parse_logresp` -/
def parseLogresp (line callsign : Str) : Option Bool :=
  match matchLogresp (strip line) with
  | none => none
  | some (name, status) =>
    if name.map PyChar.upper ≠ callsign.map PyChar.upper then none else some status

/-- `raw.decode("ascii", "replace").rstrip()` -/
def decodeLine (raw : Bytes) : Str :=
  (raw.map fun byte => if byte < 128 then PyChar.scalar (Char.ofNat byte.toNat)
    else .scalar '\uFFFD').rdropWhile fun c =>
      c.code = 32 || (9 ≤ c.code && c.code ≤ 13) || (28 ≤ c.code && c.code ≤ 31)

/-- What is written for a line. -/
def encodeLine (line : Str) : Option Bytes := encodeUtf8 (line ++ str "\r\n")

/-! ### The client -/

/-- What the client and its adapter are made with. -/
structure ClientSetup where
  adapter : Setup
  config : APRSISConfig
  diagnostics : ReassemblyBounds
  printable : PyChar → Bool
  /-- The constructor of the adapter checks its callsign. -/
  service_valid : validatePeer adapter.serviceCallsign = .ok adapter.serviceCallsign

/-- How an attempt ends without a result. -/
inductive Ending
  /-- `APRS-IS login timed out` -/
  | loginTimedOut
  /-- `APRS-IS connection became idle` -/
  | idle
  /-- `APRS-IS login was not verified` -/
  | notVerified
  /-- `APRS-IS closed before login verification` -/
  | closedEarly
  /-- Something that was called raised. -/
  | raised
  | cancelled
  deriving DecidableEq

/-- What an `await` brings. -/
inductive Await (α : Type)
  | returns (value : α)
  | raises
  | cancelled

/-- What the client does. -/
inductive Event
  /-- It writes a line. -/
  | wrote (data : Bytes)
  /-- `_connection` begins. -/
  | opened (now : ℚ)
  /-- It reads a line. -/
  | read (now : ℚ) (line : Str)
  /-- It calls `receive`. -/
  | received (peer body : Str) (now : ℚ)
  /-- It calls `poll`, which returns these packets. -/
  | polled (now : ℚ) (packets : List OutboundPacket)
  /-- It calls `connection_lost`. -/
  | lost
  /-- The attempt ends, with the result of `_connection`. -/
  | closed (verified : Bool)
  | slept (delay : ℚ)
  /-- Another task uses the adapter. -/
  | other (call : Call)

/-- The call of the adapter that an event is. -/
def Event.call : Event → Option Call
  | received peer body now => some (.receive peer body now)
  | polled now _ => some (.poll now)
  | lost => some .connectionLost
  | other call => some call
  | _ => none

/-- The local variables of `_connection`. -/
structure Link where
  connectedAt : ℚ
  lastRx : ℚ
  verified : Bool
  deriving DecidableEq

structure APRSISClient where
  adapter : APRSAdapter
  diagnostics : APRSFrameDiagnostics := {}
  lastIgate : OrderedDict Str Str := .empty
  running : Bool := true
  /-- `retry_delay` -/
  retryDelay : ℚ
  link : Option Link := none
  /-- The outcome of `_connection` while its `finally` waits for the writer to close. -/
  closing : Option (Except Ending Bool) := none
  /-- `run` has returned. -/
  finished : Bool := false
  log : List Event := []

abbrev Client (α : Type) := Method Ending APRSISClient α

def Await.result {α : Type} : Await α → Client α
  | returns value => pure value
  | raises => Method.raise .raised
  | cancelled => Method.raise .cancelled

def APRSISClient.note (event : Event) (c : APRSISClient) : APRSISClient :=
  { c with log := c.log ++ [event] }

/-- `_base_callsign` -/
def baseCallsign (peer : Str) : Str := (peer.map PyChar.upper).takeWhile fun c => c.code ≠ 45

/-- Remember the station through which a peer was heard. -/
def noteIgate (source : Str) (igate : Option Str) (c : APRSISClient) : APRSISClient :=
  match igate with
  | none => c
  | some igate => { c with lastIgate := c.lastIgate.set (baseCallsign source) igate }

/-- Write one line. -/
def writeLine (line : Str) : Client Unit := do
  match encodeLine line with
  | none => Method.raise .raised
  | some data => modify (APRSISClient.note (.wrote data))

/-- `describe_received` and `describe_sent`. Their result goes to a log of the program. -/
def describe (cs : ClientSetup) (direction : Direction) (peer body : Str) (now : ℚ) :
    Client Unit := do
  let c ← get
  let (outcome, diagnostics) := (APRSFrameDiagnostics.describe cs.diagnostics cs.printable direction
    peer body now).run c.diagnostics
  set { c with diagnostics }
  match outcome with
  | .error _ => Method.raise .raised
  | .ok _ => pure ()

/-- `self.adapter.receive(source, body)`; what it raises is ignored. -/
def receivePacket (cs : ClientSetup) (source body : Str) (now : ℚ) (c : APRSISClient) :
    APRSISClient :=
  { c with adapter := OpenQSP.step cs.adapter c.adapter (.receive source body now) }.note
    (.received source body now)

/-- What `poll` returns, as far as it returns. -/
def polledPackets (cs : ClientSetup) (s : APRSAdapter) (now : ℚ) : List OutboundPacket :=
  match ((poll cs.adapter now).run s).1 with
  | .ok packets => packets
  | .error _ => []

/-- `self.adapter.poll()` -/
def pollAdapter (cs : ClientSetup) (now : ℚ) : Client (List OutboundPacket) := do
  let c ← get
  modify fun c => { c with adapter := OpenQSP.step cs.adapter c.adapter (.poll now) }.note
    (.polled now (polledPackets cs c.adapter now))
  match ((poll cs.adapter now).run c.adapter).1 with
  | .error _ => Method.raise .raised
  | .ok packets => return packets

/-! ### One pass -/

/-- What happens in one pass of the loop of `_connection`. -/
structure Turn where
  atEof : Bool
  /-- `loop.time()` before the read. -/
  began : ℚ
  /-- `readline`; no byte when it timed out. -/
  raw : Await Bytes
  /-- `loop.time()` after the read. -/
  ended : ℚ
  /-- The clock of the adapter and of the diagnostics, each time that it is read. -/
  clock : ℕ → ℚ
  drain : Await Unit

/-- When the connection is given up. -/
def Link.deadline (config : APRSISConfig) (link : Link) : ℚ :=
  if link.verified then link.lastRx + config.idleTimeout else link.connectedAt + config.loginTimeout

/-- `_connection` looks at the deadline before and after each read. -/
def checkDeadline (config : APRSISConfig) (link : Link) (now : ℚ) : Client Unit :=
  Method.when (link.deadline config - now ≤ 0)
    (Method.raise (if link.verified then .idle else .loginTimedOut))

/-- The packet in a line, if it is for the service. -/
def addressedPacket (config : APRSISConfig) (line : Str) : Option (Str × Str × Option Str) :=
  match parsePacket line with
  | none => none
  | some (source, addressee, body, igate) =>
    if addressee = config.callsign.map PyChar.upper then some (source, body, igate) else none

/-- A packet for the service on a verified connection. -/
def handleLine (cs : ClientSetup) (clock : ℕ → ℚ) (line : Str) : Client Unit :=
  match addressedPacket cs.config line with
  | none => pure ()
  | some (source, body, igate) => do
    modify (noteIgate source igate)
    describe cs .rx source body (clock 0)
    modify (receivePacket cs source body (clock 1))

/-- What is done with what was read. -/
def readLine (cs : ClientSetup) (t : Turn) (raw : Bytes) (link : Link) : Client Link := do
  let line := decodeLine raw
  modify (APRSISClient.note (.read t.ended line))
  let verified := (parseLogresp line cs.config.callsign).getD link.verified
  if parseLogresp line cs.config.callsign = some false ∧ cs.config.requireVerified then
    Method.raise .notVerified
  else do
    Method.when verified (handleLine cs t.clock line)
    return { link with lastRx := t.ended, verified }

/-- `if raw:` -/
def readRaw (cs : ClientSetup) (t : Turn) (raw : Bytes) (link : Link) : Client Link :=
  if raw = [] then pure link else readLine cs t raw link

/-- `for outbound in self.adapter.poll()`, with the places of the packets in the list. -/
def sendPacket (cs : ClientSetup) (clock : ℕ → ℚ) (e : OutboundPacket × ℕ) : Client Unit := do
  writeLine (formatPacket e.1)
  describe cs .tx e.1.destination e.1.body (clock (e.2 + 3))

def sendAll (cs : ClientSetup) (clock : ℕ → ℚ) : Client Unit := do
  let packets ← pollAdapter cs (clock 2)
  packets.zipIdx.forM (sendPacket cs clock)

/-- One pass. It returns the link to go on with, or nothing when `_connection` returns. -/
def pass (cs : ClientSetup) (t : Turn) (link : Link) : Client (Option Link) := do
  let c ← get
  if !c.running || t.atEof then
    if c.running && !link.verified then Method.raise .closedEarly
    else return none
  else do
    checkDeadline cs.config link t.began
    let raw ← t.raw.result
    let link ← readRaw cs t raw link
    checkDeadline cs.config link t.ended
    Method.when link.verified do
      sendAll cs t.clock
      t.drain.result
    return some link

/-! ### Reconnecting -/

/-- `random.random()` -/
structure Random where
  value : ℚ
  nonneg : 0 ≤ value
  lt_one : value < 1

/-- `_jittered_delay`, where `random.uniform(a, b)` is `a + (b - a) * random.random()` -/
def jitteredDelay (config : APRSISConfig) (delay : ℚ) (random : Random) : ℚ :=
  if delay ≤ 0 ∨ config.reconnectJitter = 0 then delay
  else
    let spread := delay * config.reconnectJitter
    max 0 (delay - spread + (delay + spread - (delay - spread)) * random.value)

/-- Wait before the next attempt, unless the client was stopped. -/
def retry (cs : ClientSetup) (random : Random) (verifiedSession : Bool) (c : APRSISClient) :
    APRSISClient :=
  let c := c.note (.closed verifiedSession)
  if !c.running then { c with finished := true }
  else
    let retryDelay := if verifiedSession then cs.config.reconnectDelay else c.retryDelay
    { c with
      retryDelay := if verifiedSession then retryDelay
        else min cs.config.reconnectMaxDelay (max cs.config.reconnectDelay (retryDelay * 2))
      }.note (.slept (jitteredDelay cs.config retryDelay random))

/-- What `run` does after an attempt. -/
def attemptEnded (cs : ClientSetup) (random : Random) (outcome : Except Ending Bool)
    (c : APRSISClient) : APRSISClient :=
  let c := { c with link := none, closing := none }
  if outcome = .error .cancelled then { c with finished := true }
  else retry cs random (outcome = .ok true) c

/-- The `finally` of `_connection` up to `wait_closed`. An exception in `connection_lost` takes the
place of the outcome. -/
def closeConnection (cs : ClientSetup) (random : Random) (outcome : Except Ending Bool)
    (c : APRSISClient) : APRSISClient :=
  let c' := { c with adapter := OpenQSP.step cs.adapter c.adapter .connectionLost }.note .lost
  match ((connectionLost cs.adapter).run c.adapter).1 with
  | .ok _ => { c' with link := none, closing := some outcome }
  | .error _ => attemptEnded cs random (.error .raised) c'

/-- The outcome of `_connection` after `wait_closed`, which returns also when the connection has
failed: what else it raises takes the place of the outcome. -/
def outcomeAfter (outcome : Except Ending Bool) : Await Unit → Except Ending Bool
  | .returns () => outcome
  | .raises => .error .raised
  | .cancelled => .error .cancelled

/-- Connect, log in, and begin `_connection`. -/
def connect (cs : ClientSetup) (connector drain : Await Unit) (now : ℚ) : Client Link := do
  connector.result
  writeLine (loginLine cs.config)
  drain.result
  modify (APRSISClient.note (.opened now))
  return { connectedAt := now, lastRx := now, verified := false }

/-! ### Runs -/

/-- What happens to the client. -/
inductive Input
  /-- The next attempt of `run`. -/
  | connect (connector drain : Await Unit) (now : ℚ) (random : Random)
  /-- The next pass of `_connection`. -/
  | turn (t : Turn) (random : Random)
  /-- `wait_closed` -/
  | closed (waitClosed : Await Unit) (random : Random)
  /-- Another task uses the adapter or changes the core. -/
  | other (call : Call)
  | stop
  /-- The task is cancelled while it sleeps. -/
  | cancel

/-- The state after an input. An input that does not fit the state changes nothing. -/
def step (cs : ClientSetup) (c : APRSISClient) : Input → APRSISClient
  | .connect connector drain now random =>
    if c.link.isSome || c.closing.isSome || c.finished then c
    else if !c.running then { c with finished := true }
    else match (connect cs connector drain now).run c with
      | (.ok link, c') => { c' with link := some link }
      | (.error ending, c') => attemptEnded cs random (.error ending) c'
  | .turn t random =>
    match c.link with
    | none => c
    | some link => match (pass cs t link).run c with
      | (.ok (some link'), c') => { c' with link := some link' }
      | (.ok none, c') => closeConnection cs random (.ok link.verified) c'
      | (.error ending, c') => closeConnection cs random (.error ending) c'
  | .closed waitClosed random =>
    match c.closing with
    | none => c
    | some outcome => attemptEnded cs random (outcomeAfter outcome waitClosed) c
  | .other call =>
    { c with adapter := OpenQSP.step cs.adapter c.adapter call }.note (.other call)
  | .stop => { c with running := false }
  | .cancel => if c.link.isSome || c.closing.isSome then c else { c with finished := true }

/-- `run` begins. -/
def initialClient (cs : ClientSetup) (core : CoreState) : APRSISClient :=
  { adapter := .initial core, retryDelay := cs.config.reconnectDelay }

/-- The client after these inputs. -/
def clientAfter (cs : ClientSetup) (core : CoreState) (inputs : List Input) : APRSISClient :=
  inputs.foldl (step cs) (initialClient cs core)

end AprsIS

end OpenQSP
