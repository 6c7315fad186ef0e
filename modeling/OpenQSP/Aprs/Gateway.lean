import OpenQSP.Aprs.AprsIs
import OpenQSP.Lib.Trace

/-!
# The APRS-IS client is a gateway

A gateway is either down, or it has a connection. On a connection it reads lines, and what it reads
decides whether its login is verified. While it is, each packet for the service is handed to the
adapter, and all that a `poll` returns is written, before the next line is read. A connection ends
with `connection_lost`. Nothing else happens to the adapter, except what other tasks do.

The client is such a gateway in every run, however its connections end: `APRSISClient.log` is a
trace of `Gateway.Move`. So nothing is handed over, polled or written before the server has verified
the login on this connection.

## Main definitions

* `Gateway`, `Gateway.Move` — the abstract gateway
* `Follows` — some moves of the gateway, seen in the log of the client
* `VerifiedBy` — the last word of the server on this connection verifies the login

## Main results

* `readLine_follows`, `sendAll_follows`, `pass_follows`, `connect_follows`,
  `closeConnection_sound`
* **`client_isGateway`**
* **`link_watched`** — no connection stays open in silence
* **`retries_backOff`** — how long the client waits between two connections
-/

namespace OpenQSP

/-- The first method returns. -/
theorem Method.Yields.bind_returns {ε σ α β : Type} {m : Method ε σ α} {f : α → Method ε σ β}
    {s : σ} {a : α} {R : σ → Prop} {P : Except ε β → σ → Prop}
    (hm : m.Yields s fun outcome s' => outcome = .ok a ∧ R s')
    (hf : ∀ s', R s' → (f a).Yields s' P) : (m >>= f).Yields s P := by
  refine Yields.bind hm (fun b s' h => ?_) fun e s' h => ?_
  · obtain rfl := Except.ok.inj h.1
    exact hf s' h.2
  · cases h.1

namespace AprsIS

open Method

/-! ### The gateway -/

/-- What a gateway is about to do. -/
inductive Phase
  | down
  /-- There is a connection. A packet waits to be handed over, packets wait to be written. -/
  | up (link : Link) (handing : Option (Str × Str)) (sending : List OutboundPacket)

/-- A gateway and its adapter. -/
structure Gateway where
  adapter : APRSAdapter
  phase : Phase

/-- What a line says about the login, and when it was read. -/
def Link.reads (config : APRSISConfig) (link : Link) (now : ℚ) (line : Str) : Link :=
  { link with lastRx := now, verified := (parseLogresp line config.callsign).getD link.verified }

/-- What a gateway does, one event at a time. -/
inductive Gateway.Move (cs : ClientSetup) : Gateway → Option Event → Gateway → Prop
  | other (g : Gateway) (call : Call) :
    Move cs g (some (.other call)) ⟨OpenQSP.step cs.adapter g.adapter call, g.phase⟩
  | login {s : APRSAdapter} {data : Bytes} (encoded : encodeLine (loginLine cs.config) =
      some data) :
    Move cs ⟨s, .down⟩ (some (.wrote data)) ⟨s, .down⟩
  | opened (s : APRSAdapter) (now : ℚ) :
    Move cs ⟨s, .down⟩ (some (.opened now)) ⟨s, .up ⟨now, now, false⟩ none []⟩
  | read (s : APRSAdapter) (link : Link) (now : ℚ) (line : Str) :
    Move cs ⟨s, .up link none []⟩ (some (.read now line)) ⟨s, .up (link.reads cs.config now line)
      (if (link.reads cs.config now line).verified then
        (addressedPacket cs.config line).map fun packet => (packet.1, packet.2.1)
      else none) []⟩
  | receive (s : APRSAdapter) (link : Link) (peer body : Str) (now : ℚ) :
    Move cs ⟨s, .up link (some (peer, body)) []⟩ (some (.received peer body now))
      ⟨OpenQSP.step cs.adapter s (.receive peer body now), .up link none []⟩
  | poll (s : APRSAdapter) {link : Link} (verified : link.verified = true) (now : ℚ) :
    Move cs ⟨s, .up link none []⟩ (some (.polled now (polledPackets cs s now)))
      ⟨OpenQSP.step cs.adapter s (.poll now), .up link none (polledPackets cs s now)⟩
  | write {s : APRSAdapter} {link : Link} {packet : OutboundPacket} {packets : List OutboundPacket}
    {data : Bytes} (encoded : encodeLine (formatPacket packet) = some data) :
    Move cs ⟨s, .up link none (packet :: packets)⟩ (some (.wrote data)) ⟨s, .up link none packets⟩
  | lost (s : APRSAdapter) (link : Link) : Move cs ⟨s, .up link none []⟩ (some .lost)
      ⟨OpenQSP.step cs.adapter s .connectionLost, .down⟩
  | closed (s : APRSAdapter) (verified : Bool) :
    Move cs ⟨s, .down⟩ (some (.closed verified)) ⟨s, .down⟩
  | slept (s : APRSAdapter) (delay : ℚ) : Move cs ⟨s, .down⟩ (some (.slept delay)) ⟨s, .down⟩

/-- The adapters that a run leads to. -/
def Reaches (setup : Setup) (core : CoreState) (s : APRSAdapter) : Prop :=
  ∃ calls : List Call, s = runState setup core calls calls.length

theorem Reaches.step {setup : Setup} {core : CoreState} {s : APRSAdapter}
    (h : Reaches setup core s) (call : Call) :
    Reaches setup core (OpenQSP.step setup s call) := by
  obtain ⟨calls, rfl⟩ := h
  refine ⟨calls ++ [call], ?_⟩
  simp only [runState, stateAt_length, List.foldl_append, List.foldl_cons, List.foldl_nil]

theorem Gateway.Move.reaches {cs : ClientSetup} {core : CoreState} {g g' : Gateway}
    {e : Option Event} (h : Gateway.Move cs g e g') (hg : Reaches cs.adapter core g.adapter) :
    Reaches cs.adapter core g'.adapter := by
  cases h with
  | other _ call => exact hg.step call
  | receive => exact hg.step _
  | poll => exact hg.step _
  | lost => exact hg.step _
  | _ => exact hg

/-! ### What the log of a gateway tells -/

/-- Some event has the property, and no event after it has the other one. -/
def LastEvent (P Q : Event → Prop) (log : List Event) : Prop :=
  ∃ before e since, log = before ++ e :: since ∧ P e ∧ ∀ e' ∈ since, ¬Q e'

theorem LastEvent.now {P Q : Event → Prop} {e : Event} (h : P e) (log : List Event) :
    LastEvent P Q (log ++ [e]) :=
  ⟨log, e, [], rfl, h, fun _ he => absurd he List.not_mem_nil⟩

theorem LastEvent.snoc {P Q : Event → Prop} {log : List Event} {e : Event} (h : LastEvent P Q log)
    (he : ¬Q e) : LastEvent P Q (log ++ [e]) := by
  obtain ⟨before, e₀, since, rfl, he₀, hsince⟩ := h
  refine ⟨before, e₀, since ++ [e], by simp, he₀, fun e' he' => ?_⟩
  rcases List.mem_append.mp he' with he' | he'
  · exact hsince e' he'
  · rw [List.mem_singleton.mp he']
    exact he

/-- The event begins or ends a connection. -/
def Event.Bounds : Event → Prop
  | .opened _ | .lost => True
  | _ => False

def Event.IsRead : Event → Prop
  | .read .. => True
  | _ => False

/-- The server says that the login is verified, or that it is not. -/
def Event.Says (config : APRSISConfig) (status : Bool) : Event → Prop
  | .read _ line => parseLogresp line config.callsign = some status
  | _ => False

/-- The last word of the server on this connection verifies the login. -/
def VerifiedBy (config : APRSISConfig) : List Event → Prop :=
  LastEvent (Event.Says config true) fun e => e.Bounds ∨ e.Says config false

/-- The connection was opened at this time. -/
def OpenedAt (now : ℚ) : List Event → Prop := LastEvent (· = .opened now) Event.Bounds

/-- The last line was read at this time. -/
def ReadAt (now : ℚ) : List Event → Prop :=
  LastEvent (fun e => ∃ line, e = .read now line) fun e => e.Bounds ∨ e.IsRead

/-- The event is traffic of the service. -/
def Event.IsTraffic (config : APRSISConfig) : Event → Prop
  | .received .. | .polled .. => True
  | .wrote data => encodeLine (loginLine config) ≠ some data
  | _ => False

/-- All traffic is on verified connections. -/
def Quarantined (config : APRSISConfig) (log : List Event) : Prop :=
  ∀ n (h : n < log.length), log[n].IsTraffic config → VerifiedBy config (log.take n)

theorem Quarantined.snoc {config : APRSISConfig} {log : List Event} {e : Event}
    (h : Quarantined config log) (he : e.IsTraffic config → VerifiedBy config log) :
    Quarantined config (log ++ [e]) := by
  intro n hn htraffic
  rw [List.length_append, List.length_singleton] at hn
  rcases Nat.lt_succ_iff_lt_or_eq.mp hn with hlt | rfl
  · rw [List.getElem_append_left hlt] at htraffic
    rw [List.take_append_of_le_length hlt.le]
    exact h n hlt htraffic
  · rw [List.getElem_concat_length rfl] at htraffic
    rw [List.take_left]
    exact he htraffic

/-- What the log tells of a connection. -/
structure Link.Logged (config : APRSISConfig) (log : List Event) (link : Link) : Prop where
  verified : link.verified = true → VerifiedBy config log ∧ ReadAt link.lastRx log
  opened : OpenedAt link.connectedAt log

theorem Link.Logged.snoc {config : APRSISConfig} {log : List Event} {link : Link} {e : Event}
    (h : link.Logged config log) (hbounds : ¬e.Bounds) (hread : ¬e.IsRead)
    (hstatus : ¬e.Says config false) : link.Logged config (log ++ [e]) where
  verified hverified := by
    obtain ⟨hword, hlast⟩ := h.verified hverified
    refine ⟨hword.snoc fun h => ?_, hlast.snoc fun h => ?_⟩
    · exact h.elim hbounds hstatus
    · exact h.elim hbounds hread
  opened := h.opened.snoc hbounds

/-- A line is read. -/
theorem Link.Logged.read {config : APRSISConfig} {log : List Event} {link : Link}
    (h : link.Logged config log) (now : ℚ) (line : Str) :
    (link.reads config now line).Logged config (log ++ [.read now line]) where
  verified hverified := by
    refine ⟨?_, .now ⟨line, rfl⟩ log⟩
    simp only [Link.reads] at hverified
    cases hstatus : parseLogresp line config.callsign with
    | none =>
      rw [hstatus] at hverified
      refine (h.verified hverified).1.snoc fun h => ?_
      rcases h with h | h
      · exact h
      · cases hstatus.symm.trans h
    | some status =>
      rw [hstatus] at hverified
      obtain rfl : status = true := hverified
      exact .now hstatus log
  opened := h.opened.snoc fun h => h

/-- What the log tells of a gateway: only on a verified connection is anything to be done. -/
def Gateway.Logged (config : APRSISConfig) (log : List Event) (g : Gateway) : Prop :=
  Quarantined config log ∧ match g.phase with
    | .down => True
    | .up link handing sending => link.Logged config log ∧
      (link.verified = false → handing = none ∧ sending = [])

theorem Gateway.Move.logged {cs : ClientSetup} {g g' : Gateway} {e : Option Event}
    {log : List Event} (hmove : Gateway.Move cs g e g') (h : g.Logged cs.config log) :
    g'.Logged cs.config (log ++ e.toList) := by
  have hverified : ∀ {link : Link}, link.Logged cs.config log → link.verified = true →
      VerifiedBy cs.config log := fun h hv => (h.verified hv).1
  obtain ⟨hquarantined, hphase⟩ := h
  cases hmove with
  | other g call =>
    refine ⟨hquarantined.snoc fun h => h.elim, ?_⟩
    cases hcases : g.phase with
    | down => trivial
    | up link handing sending =>
      rw [hcases] at hphase
      exact ⟨hphase.1.snoc id id id, hphase.2⟩
  | login encoded => exact ⟨hquarantined.snoc fun h => absurd encoded h, trivial⟩
  | opened s now =>
    have hopened : OpenedAt now (log ++ [.opened now]) :=
      LastEvent.now (P := (· = .opened now)) rfl log
    refine ⟨hquarantined.snoc fun h => h.elim, ⟨fun h => ?_, hopened⟩, fun _ => ⟨rfl, rfl⟩⟩
    cases h
  | read s link now line =>
    refine ⟨hquarantined.snoc fun h => h.elim, hphase.1.read now line, fun hnot => ⟨?_, rfl⟩⟩
    rw [hnot]
    rfl
  | receive s link peer body now =>
    obtain ⟨hlogged, hidle⟩ := hphase
    have hup : link.verified = true := by
      by_contra hnot
      cases (hidle (Bool.eq_false_of_not_eq_true hnot)).1
    exact ⟨hquarantined.snoc fun _ => hverified hlogged hup, hlogged.snoc id id id,
      fun _ => ⟨rfl, rfl⟩⟩
  | poll s hup now =>
    obtain ⟨hlogged, -⟩ := hphase
    refine ⟨hquarantined.snoc fun _ => hverified hlogged hup, hlogged.snoc id id id, fun hnot => ?_⟩
    cases hup.symm.trans hnot
  | @write s link packet packets data encoded =>
    obtain ⟨hlogged, hidle⟩ := hphase
    have hup : link.verified = true := by
      by_contra hnot
      cases (hidle (Bool.eq_false_of_not_eq_true hnot)).2
    refine ⟨hquarantined.snoc fun _ => hverified hlogged hup, hlogged.snoc id id id, fun hnot => ?_⟩
    cases hup.symm.trans hnot
  | lost s link => exact ⟨hquarantined.snoc fun h => h.elim, trivial⟩
  | closed s verified => exact ⟨hquarantined.snoc fun h => h.elim, trivial⟩
  | slept s delay => exact ⟨hquarantined.snoc fun h => h.elim, trivial⟩

/-- A gateway that begins down. -/
theorem Gateway.logged_of_trace {cs : ClientSetup} {s : APRSAdapter} {g : Gateway}
    {log : List Event} (h : Trace (Gateway.Move cs) ⟨s, .down⟩ log g) : g.Logged cs.config log :=
  h.since ⟨fun _ hn => absurd hn (Nat.not_lt_zero _), trivial⟩ fun _ _ _ _ hlogged hmove =>
    hmove.logged hlogged

/-! ### The client follows -/

variable {cs : ClientSetup} {core : CoreState} {c c' : APRSISClient} {p p' : Phase}

/-- An attempt ends, or the client waits for the next one. -/
def Event.IsRetry : Event → Prop
  | .closed _ | .slept _ => True
  | _ => False

/-- The client does what a gateway does, from one phase to another, in the same attempt. -/
structure Follows (cs : ClientSetup) (c : APRSISClient) (p : Phase) (c' : APRSISClient)
    (p' : Phase) : Prop where
  trace : ∃ log, c'.log = c.log ++ log ∧
    Trace (Gateway.Move cs) ⟨c.adapter, p⟩ log ⟨c'.adapter, p'⟩ ∧
      ∀ e ∈ log, ¬e.IsRetry
  kept : c'.running = c.running ∧ c'.retryDelay = c.retryDelay ∧ c'.finished = c.finished ∧
    c'.closing = c.closing
  diagnostics : c.diagnostics.Sound → c'.diagnostics.Sound

theorem Follows.refl (c : APRSISClient) (p : Phase) : Follows cs c p c p :=
  ⟨⟨[], by simp, .refl _, fun _ he => absurd he List.not_mem_nil⟩, ⟨rfl, rfl, rfl, rfl⟩, id⟩

theorem Follows.trans {c'' : APRSISClient} {p'' : Phase} (h : Follows cs c p c' p')
    (h' : Follows cs c' p' c'' p'') : Follows cs c p c'' p'' := by
  obtain ⟨⟨log, hlog, htrace, hopen⟩, ⟨hrun, hdelay, hfinished, hclosing⟩, hdiagnostics⟩ := h
  obtain ⟨⟨log', hlog', htrace', hopen'⟩, ⟨hrun', hdelay', hfinished', hclosing'⟩,
    hdiagnostics'⟩ := h'
  refine ⟨⟨log ++ log', by rw [hlog', hlog, List.append_assoc], htrace.trans htrace', ?_⟩,
    ⟨hrun'.trans hrun, hdelay'.trans hdelay, hfinished'.trans hfinished, hclosing'.trans hclosing⟩,
    fun h => hdiagnostics' (hdiagnostics h)⟩
  intro e he
  exact (List.mem_append.mp he).elim (hopen e) (hopen' e)

/-- One move of the gateway. -/
theorem Follows.single {e : Event} {s : APRSAdapter}
    (hmove : Gateway.Move cs ⟨c.adapter, p⟩ (some e) ⟨s, p'⟩) (he : ¬e.IsRetry) :
    Follows cs c p ({ c with adapter := s }.note e) p' := by
  refine ⟨⟨[e], rfl, Trace.single hmove, fun e' he' => ?_⟩, ⟨rfl, rfl, rfl, rfl⟩, id⟩
  rw [List.mem_singleton.mp he']
  exact he

theorem Follows.reaches (h : Follows cs c p c' p') (hc : Reaches cs.adapter core c.adapter) :
    Reaches cs.adapter core c'.adapter := by
  obtain ⟨⟨log, -, htrace, -⟩, -⟩ := h
  exact htrace.keeps (I := fun g => Reaches cs.adapter core g.adapter) hc fun _ _ _ hg hmove =>
    hmove.reaches hg

theorem noteIgate_follows (source : Str) (igate : Option Str) :
    Follows cs c p (noteIgate source igate c) p := by
  cases igate with
  | none => exact Follows.refl c p
  | some igate => exact ⟨⟨[], (List.append_nil c.log).symm, .refl _,
      fun _ he => absurd he List.not_mem_nil⟩, ⟨rfl, rfl, rfl, rfl⟩, id⟩

/-- A description is made, and it goes nowhere. -/
theorem describe_follows (hc : c.diagnostics.Sound) (direction : Direction) (peer body : Str)
    (now : ℚ) : (describe cs direction peer body now).Yields c fun outcome c' =>
      outcome = .ok () ∧ Follows cs c p c' p := by
  have hspec : (APRSFrameDiagnostics.describe cs.diagnostics cs.printable direction peer body
      now).Yields c.diagnostics _ := APRSFrameDiagnostics.describe_spec hc direction peer body now
  obtain ⟨hsound, text, htext, -⟩ := hspec
  rw [describe]
  refine Yields.get_bind ?_
  rcases hrun : (APRSFrameDiagnostics.describe cs.diagnostics cs.printable direction peer body
    now).run c.diagnostics with ⟨outcome, diagnostics⟩
  rw [hrun] at hsound htext
  obtain rfl : outcome = .ok text := htext
  exact ⟨rfl, ⟨[], (List.append_nil c.log).symm, .refl _, fun _ he => absurd he List.not_mem_nil⟩,
    ⟨rfl, rfl, rfl, rfl⟩, fun _ => hsound⟩

/-- An `await` does nothing to the client. -/
theorem result_follows {α : Type} (a : Await α) :
    a.result.Yields c fun _ c' => Follows cs c p c' p := by
  cases a <;> exact Follows.refl c p

theorem checkDeadline_follows (link : Link) (now : ℚ) :
    (checkDeadline cs.config link now).Yields c fun outcome c' =>
      (outcome = .ok () → now < link.deadline cs.config) ∧ Follows cs c p c' p := by
  rw [checkDeadline, when]
  split
  · refine ⟨fun h => ?_, Follows.refl c p⟩
    cases h
  · next h => exact ⟨fun _ => by linarith, Follows.refl c p⟩

/-- A line that can be written. -/
theorem writeLine_follows {line : Str} {data : Bytes} (hencode : encodeLine line = some data)
    (hmove : Gateway.Move cs ⟨c.adapter, p⟩ (some (.wrote data)) ⟨c.adapter, p'⟩) :
    (writeLine line).Yields c fun outcome c' => outcome = .ok () ∧ Follows cs c p c' p' := by
  rw [writeLine, hencode]
  exact ⟨rfl, .single hmove id⟩

/-! ### One pass -/

/-- A packet for the service is handed over. -/
theorem handleLine_follows (hc : c.diagnostics.Sound) (clock : ℕ → ℚ) (line : Str) (link : Link) :
    (handleLine cs clock line).Yields c fun outcome c' => outcome = .ok () ∧
      Follows cs c (.up link ((addressedPacket cs.config line).map fun packet =>
        (packet.1, packet.2.1)) []) c' (.up link none []) := by
  rw [handleLine]
  cases haddressed : addressedPacket cs.config line with
  | none => exact ⟨rfl, Follows.refl c _⟩
  | some packet =>
    obtain ⟨source, body, igate⟩ := packet
    refine Yields.modify_bind ?_
    have hnoted : Follows cs c (.up link (some (source, body)) []) (noteIgate source igate c)
        (.up link (some (source, body)) []) := noteIgate_follows source igate
    have hdescribed : (describe cs .rx source body (clock 0)).Yields (noteIgate source igate c)
        fun outcome c' => outcome = .ok () ∧ Follows cs (noteIgate source igate c)
          (.up link (some (source, body)) []) c' (.up link (some (source, body)) []) :=
      describe_follows (hnoted.diagnostics hc) _ _ _ _
    refine Yields.bind_returns hdescribed fun c₁ hc₁ => ⟨rfl, (hnoted.trans hc₁).trans ?_⟩
    exact .single (.receive c₁.adapter link source body (clock 1)) id

/-- A line is read: what it says of the login counts for what becomes of it. -/
theorem readLine_follows (hc : c.diagnostics.Sound) (t : Turn) (raw : Bytes) (link : Link) :
    (readLine cs t raw link).Yields c fun outcome c' =>
      Follows cs c (.up link none []) c'
        (.up (link.reads cs.config t.ended (decodeLine raw)) none []) ∧
      ∀ link', outcome = .ok link' → link' = link.reads cs.config t.ended (decodeLine raw) := by
  set link₁ := link.reads cs.config t.ended (decodeLine raw)
  set c₁ : APRSISClient := c.note (.read t.ended (decodeLine raw))
  have hread : Follows cs c (.up link none []) c₁ (.up link₁ (if link₁.verified then
      (addressedPacket cs.config (decodeLine raw)).map fun packet => (packet.1, packet.2.1)
    else none) []) := .single (.read c.adapter link t.ended (decodeLine raw)) id
  have hsound : c₁.diagnostics.Sound := hc
  rw [readLine]
  refine Yields.modify_bind ?_
  split
  · next hrefused =>
    have hdown : link₁.verified = false := by
      show (parseLogresp (decodeLine raw) cs.config.callsign).getD link.verified = false
      rw [hrefused.1]
      rfl
    rw [hdown, if_neg (by decide)] at hread
    exact ⟨hread, fun _ h => by cases h⟩
  by_cases hup : link₁.verified = true
  · rw [hup, if_pos rfl] at hread
    have hhandle : (when (link₁.verified = true) (handleLine cs t.clock (decodeLine raw))).Yields c₁
        fun outcome c' => outcome = .ok () ∧ Follows cs c₁ (.up link₁
          ((addressedPacket cs.config (decodeLine raw)).map fun packet =>
            (packet.1, packet.2.1)) [])
          c' (.up link₁ none []) := by
      rw [when_true hup]
      exact handleLine_follows hsound t.clock (decodeLine raw) link₁
    exact Yields.bind_returns hhandle fun c₂ hc₂ =>
      ⟨hread.trans hc₂, fun _ h => (Except.ok.inj h).symm⟩
  · have hdown := Bool.eq_false_of_not_eq_true hup
    rw [hdown, if_neg (by decide)] at hread
    have hnothing : (when (link₁.verified = true)
      (handleLine cs t.clock (decodeLine raw))).Yields c₁
        fun outcome c' => outcome = .ok () ∧ c' = c₁ := by
      rw [when_false hup]
      exact ⟨rfl, rfl⟩
    refine Yields.bind_returns hnothing fun c₂ hc₂ => ?_
    rw [hc₂]
    exact ⟨hread, fun _ h => (Except.ok.inj h).symm⟩

/-- ASCII text can be encoded. -/
theorem exists_encodeUtf8 {text : Str} (h : ∀ c ∈ text, c.code < 128) :
    ∃ data, encodeUtf8 text = some data := by
  induction text with
  | nil => exact ⟨[], rfl⟩
  | cons c text ih =>
    obtain ⟨data, hdata⟩ := ih fun c hc => h c (List.mem_cons_of_mem _ hc)
    cases c with
    | scalar c => exact ⟨_, by rw [encodeUtf8, hdata, Option.map_some]⟩
    | surrogate unit =>
      have hcode : 0xD800 + unit.val < 128 := h _ List.mem_cons_self
      omega

/-- The line of a packet that may be sent can be written. -/
theorem exists_encodeLine {packet : OutboundPacket} (h : packet.Sendable cs.adapter) :
    ∃ data, encodeLine (formatPacket packet) = some data := by
  have haddress : ∀ {peer : Str}, validatePeer peer = .ok peer → ∀ c ∈ peer, c.code < 128 := by
    intro peer hpeer c hc
    have hcode := PyChar.isAddress_iff.mp ((validatePeer_chars hpeer).2 c hc)
    omega
  have hsource := haddress cs.service_valid
  rw [← h.source_eq] at hsource
  have hbody : ∀ c ∈ packet.body, c.code < 128 := by
    intro c hc
    have hcode := PyChar.isPrintable_iff.mp (h.printable c hc)
    omega
  have hfill : ∀ c ∈ fillNine packet.destination, c.code < 128 := by
    intro c hc
    rcases List.mem_append.mp hc with hc | hc
    · exact haddress h.destination_valid c hc
    · rw [List.eq_of_mem_replicate hc]
      decide
  refine exists_encodeUtf8 fun c hc => ?_
  simp only [formatPacket, List.mem_append, or_assoc] at hc
  rcases hc with hc | hc | hc | hc | hc | hc | hc | hc | hc | hc
  · exact hsource c hc
  · exact (by decide : ∀ c ∈ str ">", c.code < 128) c hc
  · exact (by decide : ∀ c ∈ str "APOQSP", c.code < 128) c hc
  · exact (by decide : ∀ c ∈ str ",", c.code < 128) c hc
  · exact (by decide : ∀ c ∈ str "TCPIP*", c.code < 128) c hc
  · exact (by decide : ∀ c ∈ str "::", c.code < 128) c hc
  · exact hfill c hc
  · exact (by decide : ∀ c ∈ str ":", c.code < 128) c hc
  · exact hbody c hc
  · exact (by decide : ∀ c ∈ str "\r\n", c.code < 128) c hc

/-- All packets that a `poll` returned are written. -/
theorem sendPackets_follows (clock : ℕ → ℚ) (link : Link) (packets : List OutboundPacket)
    (hsendable : ∀ packet ∈ packets, packet.Sendable cs.adapter) :
    ∀ (n : ℕ) (c : APRSISClient), c.diagnostics.Sound →
      ((packets.zipIdx n).forM (sendPacket cs clock)).Yields c fun outcome c' =>
        outcome = .ok () ∧ Follows cs c (.up link none packets) c' (.up link none []) := by
  induction packets with
  | nil => exact fun _ c _ => ⟨rfl, Follows.refl c _⟩
  | cons packet packets ih =>
    intro n c hc
    obtain ⟨data, hdata⟩ := exists_encodeLine (hsendable packet List.mem_cons_self)
    rw [List.zipIdx_cons]
    have hone : (sendPacket cs clock (packet, n)).Yields c fun outcome c' => outcome = .ok () ∧
        Follows cs c (.up link none (packet :: packets)) c' (.up link none packets) := by
      have hwritten : (writeLine (formatPacket packet)).Yields c fun outcome c' =>
          outcome = .ok () ∧ Follows cs c (.up link none (packet :: packets)) c'
            (.up link none packets) := writeLine_follows hdata (.write hdata)
      refine Yields.bind_returns hwritten fun c₁ hc₁ => ?_
      exact Yields.mono (describe_follows (hc₁.diagnostics hc) _ _ _ _) fun _ _ h =>
        ⟨h.1, hc₁.trans h.2⟩
    refine Yields.bind_returns hone fun c₁ hc₁ => ?_
    exact Yields.mono (ih (fun packet hpacket => hsendable packet (List.mem_cons_of_mem _ hpacket))
      _ c₁ (hc₁.diagnostics hc)) fun _ _ h => ⟨h.1, hc₁.trans h.2⟩

/-- The adapter is polled, and all that it returns is written. -/
theorem sendAll_follows (hc : c.diagnostics.Sound) (hreaches : Reaches cs.adapter core c.adapter)
    (clock : ℕ → ℚ) {link : Link} (hup : link.verified = true) :
    (sendAll cs clock).Yields c fun _ c' =>
      Follows cs c (.up link none []) c' (.up link none []) := by
  set packets := polledPackets cs c.adapter (clock 2) with hpackets
  set c₁ : APRSISClient := { c with
    adapter := OpenQSP.step cs.adapter c.adapter (.poll (clock 2)) }.note
      (.polled (clock 2) packets)
  have hpolled : Follows cs c (.up link none []) c₁ (.up link none packets) :=
    .single (.poll c.adapter hup (clock 2)) id
  have hsendable : ∀ packet ∈ packets, packet.Sendable cs.adapter := by
    obtain ⟨calls, hcalls⟩ := hreaches
    rw [hpackets, hcalls, polledPackets]
    split
    · next packets hreturned =>
      exact poll_sendable (runState_sound cs.adapter core calls _ le_rfl)
        (runState_sendsLines core calls _ le_rfl) hreturned
    · exact fun _ h => absurd h List.not_mem_nil
  rw [sendAll]
  have hpoll : (pollAdapter cs (clock 2)).Yields c fun outcome c' => c' = c₁ ∧
      ((∃ e, outcome = .error e) ∧ packets = [] ∨ outcome = .ok packets) := by
    refine Yields.get_bind (Yields.modify_bind ?_)
    cases hrun : ((poll cs.adapter (clock 2)).run c.adapter).1 with
    | error e => exact ⟨rfl, .inl ⟨⟨_, rfl⟩, by rw [hpackets, polledPackets, hrun]⟩⟩
    | ok returned =>
      refine ⟨rfl, .inr ?_⟩
      rw [hpackets, polledPackets, hrun]
      rfl
  refine Yields.bind hpoll (fun packets' c' hc' => ?_) fun e c' hc' => ?_
  · obtain ⟨rfl, ⟨⟨e, he⟩, -⟩ | hreturned⟩ := hc'
    · cases he
    rw [Except.ok.inj hreturned]
    exact Yields.mono (sendPackets_follows clock link packets hsendable 0 c₁ hc) fun _ _ h =>
      hpolled.trans h.2
  · obtain ⟨rfl, ⟨-, hnone⟩ | hreturned⟩ := hc'
    · rwa [hnone] at hpolled
    · cases hreturned

/-- One pass: the client goes on with the same connection before its deadline, or `_connection`
ends. -/
theorem pass_follows (hc : c.diagnostics.Sound) (hreaches : Reaches cs.adapter core c.adapter)
    (t : Turn) (link : Link) : (pass cs t link).Yields c fun outcome c' =>
      ∃ link', Follows cs c (.up link none []) c' (.up link' none []) ∧
        ∀ link'', outcome = .ok (some link'') →
          link' = link'' ∧ t.ended < link''.deadline cs.config := by
  rw [pass]
  refine Yields.get_bind ?_
  split
  · split
    · exact ⟨link, Follows.refl c _, fun _ h => by cases h⟩
    · exact ⟨link, Follows.refl c _, fun _ h => by cases h⟩
  have hbegan : (checkDeadline cs.config link t.began).Yields c fun _ c' =>
      Follows cs c (.up link none []) c' (.up link none []) :=
    Yields.mono (checkDeadline_follows link t.began) fun _ _ h => h.2
  refine Yields.bind hbegan (fun _ c₁ hc₁ => ?_) fun _ c₁ hc₁ =>
    ⟨link, hc₁, fun _ h => by cases h⟩
  have hawaited : t.raw.result.Yields c₁ fun _ c' =>
    Follows cs c₁ (.up link none []) c' (.up link none []) := result_follows t.raw
  refine Yields.bind hawaited (fun raw c₂ hc₂ => ?_) fun _ c₂ hc₂ =>
    ⟨link, hc₁.trans hc₂, fun _ h => by cases h⟩
  have hfollows₂ := hc₁.trans hc₂
  have hread : (readRaw cs t raw link).Yields c₂ fun outcome c' =>
      ∃ link', Follows cs c₂ (.up link none []) c' (.up link' none []) ∧
        ∀ link'', outcome = .ok link'' → link'' = link' := by
    rw [readRaw]
    split
    · exact ⟨link, Follows.refl c₂ _, fun _ h => (Except.ok.inj h).symm⟩
    · exact ⟨_, readLine_follows (hfollows₂.diagnostics hc) t raw link⟩
  refine Yields.bind hread (fun link₃ c₃ hc₃ => ?_) fun _ c₃ hc₃ => ?_
  swap
  · obtain ⟨link', hfollows, -⟩ := hc₃
    exact ⟨link', hfollows₂.trans hfollows, fun _ h => by cases h⟩
  obtain ⟨link', hfollows, hlink⟩ := hc₃
  obtain rfl := hlink link₃ rfl
  have hfollows₃ := hfollows₂.trans hfollows
  have hended : (checkDeadline cs.config link₃ t.ended).Yields c₃ fun outcome c' =>
      (outcome = .ok () → t.ended < link₃.deadline cs.config) ∧
        Follows cs c₃ (.up link₃ none []) c' (.up link₃ none []) :=
    checkDeadline_follows link₃ t.ended
  refine Yields.bind hended (fun _ c₄ hc₄ => ?_) fun _ c₄ hc₄ =>
    ⟨link₃, hfollows₃.trans hc₄.2, fun _ h => by cases h⟩
  have hdeadline := hc₄.1 rfl
  have hfollows₄ := hfollows₃.trans hc₄.2
  have hsent : (Method.when (link₃.verified = true) do
      sendAll cs t.clock
      t.drain.result).Yields c₄ fun _ c' =>
        Follows cs c₄ (.up link₃ none []) c' (.up link₃ none []) := by
    rw [when]
    split
    · next hup =>
      refine Yields.bind (sendAll_follows (hfollows₄.diagnostics hc) (hfollows₄.reaches hreaches)
        t.clock hup) (fun _ c₅ hc₅ => ?_) fun _ c₅ hc₅ => hc₅
      exact Yields.mono (result_follows t.drain) fun _ _ h => hc₅.trans h
    · exact Follows.refl c₄ _
  refine Yields.bind hsent (fun _ c₅ hc₅ => ?_) fun _ c₅ hc₅ =>
    ⟨link₃, hfollows₄.trans hc₅, fun _ h => by cases h⟩
  refine ⟨link₃, hfollows₄.trans hc₅, fun link'' h => ?_⟩
  obtain rfl := Option.some.inj (Except.ok.inj h)
  exact ⟨rfl, hdeadline⟩

/-- A connection attempt: it writes at most the login line. -/
theorem connect_follows (connector drain : Await Unit) (now : ℚ) :
    (connect cs connector drain now).Yields c fun outcome c' =>
      (∀ link, outcome = .ok link → Follows cs c .down c' (.up link none [])) ∧
      ∀ e, outcome = .error e → Follows cs c .down c' .down := by
  have hraises : ∀ {e : Ending} {c' : APRSISClient}, Follows cs c .down c' .down →
      (∀ link, (Except.error e : Except Ending Link) = .ok link →
        Follows cs c .down c' (.up link none [])) ∧
      ∀ e', (Except.error e : Except Ending Link) = .error e' → Follows cs c .down c' .down :=
    fun h => ⟨fun _ h => (by cases h), fun _ _ => h⟩
  have hconnected : connector.result.Yields c fun _ c' => Follows cs c .down c' .down :=
    result_follows connector
  rw [connect]
  refine Yields.bind hconnected (fun _ c₁ hc₁ => ?_) fun _ c₁ hc₁ => hraises hc₁
  have hlogin : (writeLine (loginLine cs.config)).Yields c₁ fun _ c' =>
      Follows cs c₁ .down c' .down := by
    cases hdata : encodeLine (loginLine cs.config) with
    | none =>
      rw [writeLine, hdata]
      exact Follows.refl c₁ _
    | some data => exact Yields.mono (writeLine_follows hdata (.login hdata)) fun _ _ h => h.2
  refine Yields.bind hlogin (fun _ c₂ hc₂ => ?_) fun _ c₂ hc₂ => hraises (hc₁.trans hc₂)
  have hdrained : drain.result.Yields c₂ fun _ c' => Follows cs c₂ .down c' .down :=
    result_follows drain
  refine Yields.bind hdrained (fun _ c₃ hc₃ => ?_) fun _ c₃ hc₃ =>
    hraises ((hc₁.trans hc₂).trans hc₃)
  refine Yields.modify_bind ⟨fun link h => ?_, fun _ h => by cases h⟩
  obtain rfl := Except.ok.inj h
  exact ((hc₁.trans hc₂).trans hc₃).trans (.single (.opened c₃.adapter now) id)

/-! ### Attempts -/

/-- How many attempts have failed since the last session that was verified until its end. -/
def failures (log : List Event) : ℕ :=
  log.foldl (fun failed e => match e with
    | .closed verified => if verified then 0 else failed + 1
    | _ => failed) 0

theorem failures_append {log log' : List Event} (h : ∀ e ∈ log', ¬e.IsRetry) :
    failures (log ++ log') = failures log := by
  induction log' using List.reverseRecOn with
  | nil => rw [List.append_nil]
  | append_singleton log' e ih =>
    have he := h e (by simp)
    rw [← List.append_assoc, failures, List.foldl_append]
    have hrest := ih fun e' he' => h e' (List.mem_append_left _ he')
    cases e with
    | closed => exact absurd trivial he
    | _ => exact hrest

/-- The delay after so many failures. -/
def baseDelay (config : APRSISConfig) (failed : ℕ) : ℚ :=
  min config.reconnectMaxDelay (config.reconnectDelay * 2 ^ failed)

theorem baseDelay_zero (config : APRSISConfig) : baseDelay config 0 = config.reconnectDelay := by
  rw [baseDelay, pow_zero, mul_one]
  exact min_eq_right config.reconnectDelay_le

/-- What one more failure makes of the delay. -/
theorem baseDelay_succ (config : APRSISConfig) (failed : ℕ) :
    min config.reconnectMaxDelay (max config.reconnectDelay (baseDelay config failed * 2)) =
      baseDelay config (failed + 1) := by
  have hnonneg := config.reconnectDelay_nonneg
  have hle := config.reconnectDelay_le
  have hpow : (1 : ℚ) ≤ 2 ^ failed := one_le_pow₀ (by norm_num)
  have hgrows : config.reconnectDelay ≤ config.reconnectDelay * 2 ^ failed :=
    le_mul_of_one_le_right hnonneg hpow
  simp only [baseDelay, pow_succ, ← mul_assoc]
  generalize config.reconnectDelay * 2 ^ failed = delay at hgrows
  rcases le_total config.reconnectMaxDelay delay with h | h
  · rw [min_eq_left h, max_eq_right (by linarith), min_eq_left (by linarith),
      min_eq_left (by linarith)]
  · rw [min_eq_right h, max_eq_right (by linarith)]

theorem baseDelay_nonneg (config : APRSISConfig) (failed : ℕ) : 0 ≤ baseDelay config failed :=
  le_min (config.reconnectDelay_nonneg.trans config.reconnectDelay_le)
    (mul_nonneg config.reconnectDelay_nonneg (by positivity))

/-- The delay is within its jitter. -/
def Jitters (config : APRSISConfig) (base delay : ℚ) : Prop :=
  base * (1 - config.reconnectJitter) ≤ delay ∧ delay ≤ base * (1 + config.reconnectJitter)

theorem jitteredDelay_jitters (config : APRSISConfig) {base : ℚ} (hbase : 0 ≤ base)
    (random : Random) : Jitters config base (jitteredDelay config base random) := by
  obtain ⟨hjitter, hjitter'⟩ := config.reconnectJitter_mem
  have hspread : 0 ≤ base * config.reconnectJitter := mul_nonneg hbase hjitter
  have hspread' : base * config.reconnectJitter ≤ base := mul_le_of_le_one_right hbase hjitter'
  rw [Jitters, mul_sub, mul_add, mul_one, jitteredDelay]
  split
  · constructor <;> linarith
  have hlow : 0 ≤ base * config.reconnectJitter * random.value := mul_nonneg hspread random.nonneg
  have hhigh : base * config.reconnectJitter * random.value ≤ base * config.reconnectJitter :=
    mul_le_of_le_one_right hspread random.lt_one.le
  rw [max_eq_right (by linarith)]
  constructor <;> linarith

/-- Every delay is that after the failures before it. -/
def BacksOff (config : APRSISConfig) (log : List Event) : Prop :=
  ∀ n (h : n < log.length) (delay : ℚ), log[n] = .slept delay →
    Jitters config (baseDelay config (failures (log.take n) - 1)) delay

theorem BacksOff.snoc {config : APRSISConfig} {log : List Event} {e : Event}
    (h : BacksOff config log) (he : ∀ delay, e = .slept delay →
      Jitters config (baseDelay config (failures log - 1)) delay) :
    BacksOff config (log ++ [e]) := by
  intro n hn delay hdelay
  rw [List.length_append, List.length_singleton] at hn
  rcases Nat.lt_succ_iff_lt_or_eq.mp hn with hlt | rfl
  · rw [List.getElem_append_left hlt] at hdelay
    rw [List.take_append_of_le_length hlt.le]
    exact h n hlt delay hdelay
  · rw [List.getElem_concat_length rfl] at hdelay
    rw [List.take_left]
    exact he delay hdelay

theorem BacksOff.append {config : APRSISConfig} {log log' : List Event} (h : BacksOff config log)
    (hlog : ∀ e ∈ log', ¬e.IsRetry) : BacksOff config (log ++ log') := by
  induction log' using List.reverseRecOn with
  | nil => rwa [List.append_nil]
  | append_singleton log' e ih =>
    rw [← List.append_assoc]
    refine (ih fun e' he' => hlog e' (List.mem_append_left _ he')).snoc fun delay hdelay => ?_
    have he := hlog e (by simp)
    rw [hdelay] at he
    exact absurd trivial he

/-! ### Runs -/

/-- The phase between two inputs. -/
def APRSISClient.phase (c : APRSISClient) : Phase :=
  match c.link with
  | none => .down
  | some link => .up link none []

/-- The client has been a gateway so far, and it waits as long as its failures ask for. -/
structure IsGateway (cs : ClientSetup) (core : CoreState) (c : APRSISClient) (p : Phase) :
    Prop where
  trace : Trace (Gateway.Move cs) ⟨.initial core, .down⟩ c.log ⟨c.adapter, p⟩
  diagnostics : c.diagnostics.Sound
  retryDelay : c.finished = false → c.retryDelay = baseDelay cs.config (failures c.log)
  backsOff : BacksOff cs.config c.log

theorem IsGateway.reaches (h : IsGateway cs core c p) : Reaches cs.adapter core c.adapter :=
  h.trace.keeps (I := fun g => Reaches cs.adapter core g.adapter) ⟨[], rfl⟩ fun _ _ _ hg hmove =>
    hmove.reaches hg

theorem IsGateway.follows (h : IsGateway cs core c p) (hfollows : Follows cs c p c' p') :
    IsGateway cs core c' p' := by
  obtain ⟨⟨log, hlog, htrace, hretry⟩, hkept, hdiagnostics⟩ := hfollows
  refine ⟨?_, hdiagnostics h.diagnostics, ?_, ?_⟩
  · rw [hlog]
    exact h.trace.trans htrace
  · rw [hlog, failures_append hretry, hkept.2.1, hkept.2.2.1]
    exact h.retryDelay
  · rw [hlog]
    exact h.backsOff.append hretry

/-- After an attempt the client waits, unless it was stopped. -/
theorem retry_isGateway (h : IsGateway cs core c .down) (hopen : c.finished = false)
    (random : Random) (verified : Bool) : IsGateway cs core (retry cs random verified c) .down := by
  have hclosed : Trace (Gateway.Move cs) ⟨.initial core, .down⟩ (c.log ++ [.closed verified])
      ⟨c.adapter, .down⟩ := h.trace.snoc (.closed c.adapter verified)
  have hbacksOff : BacksOff cs.config (c.log ++ [.closed verified]) :=
    h.backsOff.snoc fun _ h => by cases h
  cases hrunning : c.running with
  | false =>
    have hretry : retry cs random verified c =
        { c.note (.closed verified) with finished := true } :=
      if_pos (by rw [APRSISClient.note, hrunning]; rfl)
    rw [hretry]
    exact ⟨hclosed, h.diagnostics, fun h => (by cases h), hbacksOff⟩
  | true =>
    have hfailures : failures (c.log ++ [.closed verified]) =
        if verified then 0 else failures c.log + 1 := by
      rw [failures, List.foldl_append]
      rfl
    -- The delay that the failures so far ask for, and the one that the next failure will.
    have hbase : (if verified then cs.config.reconnectDelay else c.retryDelay) =
        baseDelay cs.config (failures (c.log ++ [.closed verified]) - 1) := by
      rw [hfailures, h.retryDelay hopen]
      cases verified with
      | true => exact (baseDelay_zero cs.config).symm
      | false => rfl
    have hnext : (if verified then cs.config.reconnectDelay else
        min cs.config.reconnectMaxDelay (max cs.config.reconnectDelay (c.retryDelay * 2))) =
        baseDelay cs.config (failures (c.log ++ [.closed verified])) := by
      rw [hfailures, h.retryDelay hopen]
      cases verified with
      | true => exact (baseDelay_zero cs.config).symm
      | false => exact baseDelay_succ cs.config (failures c.log)
    have hjitters := jitteredDelay_jitters cs.config (baseDelay_nonneg cs.config
      (failures (c.log ++ [.closed verified]) - 1)) random
    rw [← hbase] at hjitters
    have hretry : retry cs random verified c = { c.note (.closed verified) with
        retryDelay := if verified then cs.config.reconnectDelay else
          min cs.config.reconnectMaxDelay (max cs.config.reconnectDelay (c.retryDelay * 2)) }.note
          (.slept (jitteredDelay cs.config
            (if verified then cs.config.reconnectDelay else c.retryDelay) random)) := by
      rw [retry, APRSISClient.note, hrunning]
      cases verified <;> rfl
    rw [hretry, hnext]
    generalize jitteredDelay cs.config (if verified then cs.config.reconnectDelay else c.retryDelay)
      random = delay at hjitters
    refine ⟨hclosed.snoc (.slept c.adapter delay), h.diagnostics, fun _ => ?_,
      hbacksOff.snoc fun delay' h => ?_⟩
    · have hslept : failures (c.log ++ [.closed verified] ++ [.slept delay]) =
          failures (c.log ++ [.closed verified]) := by
        rw [failures, List.foldl_append]
        rfl
      exact congrArg (baseDelay cs.config) hslept.symm
    · rw [← Event.slept.inj h, ← hbase]
      exact hjitters

/-- An attempt ends. -/
theorem attemptEnded_isGateway (h : IsGateway cs core c .down) (hopen : c.finished = false)
    (random : Random) (outcome : Except Ending Bool) :
    IsGateway cs core (attemptEnded cs random outcome c) .down := by
  have hlost : IsGateway cs core { c with link := none, closing := none } .down :=
    ⟨h.trace, h.diagnostics, h.retryDelay, h.backsOff⟩
  rw [attemptEnded]
  split
  · exact ⟨h.trace, h.diagnostics, fun _ => h.retryDelay hopen, h.backsOff⟩
  · exact retry_isGateway hlost hopen random _

theorem attemptEnded_link (random : Random) (outcome : Except Ending Bool) (c : APRSISClient) :
    (attemptEnded cs random outcome c).link = none ∧
      (attemptEnded cs random outcome c).closing = none := by
  rw [attemptEnded]
  split
  · exact ⟨rfl, rfl⟩
  · rw [retry]
    split <;> exact ⟨rfl, rfl⟩

theorem closeConnection_link (random : Random) (outcome : Except Ending Bool) (c : APRSISClient) :
    (closeConnection cs random outcome c).link = none := by
  rw [closeConnection]
  split
  · rfl
  · exact (attemptEnded_link random _ _).1

/-- What holds between two inputs. -/
structure APRSISClient.Sound (cs : ClientSetup) (core : CoreState) (c : APRSISClient) : Prop where
  gateway : IsGateway cs core c c.phase
  unfinished : c.link.isSome ∨ c.closing.isSome → c.finished = false
  /-- A connection that closes is no longer used. -/
  closed : c.closing.isSome → c.link = none

theorem APRSISClient.Sound.down (h : c.Sound cs core) (hlink : c.link = none) :
    IsGateway cs core c .down := by
  have hgateway := h.gateway
  rwa [APRSISClient.phase, hlink] at hgateway

theorem APRSISClient.Sound.of_down (h : IsGateway cs core c .down) (hlink : c.link = none)
    (hopen : c.closing.isSome → c.finished = false) : c.Sound cs core := by
  have hphase : c.phase = .down := by rw [APRSISClient.phase, hlink]
  refine ⟨hphase ▸ h, ?_, fun _ => hlink⟩
  rintro (hsome | hsome)
  · rw [hlink] at hsome
    cases hsome
  · exact hopen hsome

theorem APRSISClient.Sound.of_up {link : Link} (h : IsGateway cs core c (.up link none []))
    (hopen : c.finished = false) (hclosing : c.closing = none) :
    APRSISClient.Sound cs core { c with link := some link } := by
  refine ⟨⟨h.trace, h.diagnostics, h.retryDelay, h.backsOff⟩, fun _ => hopen, fun hsome => ?_⟩
  rw [hclosing] at hsome
  cases hsome

/-- An attempt has ended. -/
theorem attemptEnded_sound (h : IsGateway cs core c .down) (hopen : c.finished = false)
    (random : Random) (outcome : Except Ending Bool) :
    (attemptEnded cs random outcome c).Sound cs core := by
  obtain ⟨hlink, hclosing⟩ : (attemptEnded cs random outcome c).link = none ∧ _ :=
    attemptEnded_link random outcome c
  refine .of_down (attemptEnded_isGateway h hopen random outcome) hlink fun hsome => ?_
  rw [hclosing] at hsome
  cases hsome

/-- A connection ends: the client waits for it to close, unless `connection_lost` raises. -/
theorem closeConnection_sound {link : Link} (h : IsGateway cs core c (.up link none []))
    (hopen : c.finished = false) (random : Random) (outcome : Except Ending Bool) :
    (closeConnection cs random outcome c).Sound cs core := by
  have hlost : IsGateway cs core ({ c with
      adapter := OpenQSP.step cs.adapter c.adapter .connectionLost }.note .lost) .down :=
    h.follows (.single (.lost c.adapter link) id)
  rw [closeConnection]
  split
  · exact .of_down ⟨hlost.trace, hlost.diagnostics, hlost.retryDelay, hlost.backsOff⟩ rfl
      fun _ => hopen
  · exact attemptEnded_sound hlost hopen random (.error .raised)

theorem step_gateway (h : c.Sound cs core) (input : Input) : (step cs c input).Sound cs core := by
  cases input with
  | connect connector drain now random =>
    rw [step]
    split
    · exact h
    next hready =>
    simp only [Bool.or_eq_true, not_or, Bool.not_eq_true, Option.isSome_eq_false_iff,
      Option.isNone_iff_eq_none] at hready
    obtain ⟨⟨hlink, hclosing⟩, hopen⟩ := hready
    have hdown := h.down hlink
    split
    · exact .of_down ⟨hdown.trace, h.gateway.diagnostics, fun h => (by cases h),
        h.gateway.backsOff⟩ hlink fun hsome => (by rw [hclosing] at hsome; cases hsome)
    have hconnect : (connect cs connector drain now).Yields c _ :=
      connect_follows connector drain now
    obtain ⟨hok, herror⟩ := hconnect
    split
    · next link c' hrun =>
      rw [hrun] at hok
      have hfollows := hok link rfl
      obtain ⟨-, -, hfinished, hkept⟩ := hfollows.kept
      exact .of_up (hdown.follows hfollows) (hfinished.trans hopen) (hkept.trans hclosing)
    · next ending c' hrun =>
      rw [hrun] at herror
      have hfollows := herror ending rfl
      exact attemptEnded_sound (hdown.follows hfollows) (hfollows.kept.2.2.1.trans hopen) random _
  | turn t random =>
    rw [step]
    split
    · exact h
    next link hlink =>
    have hgateway : IsGateway cs core c (.up link none []) := by
      have hgateway := h.gateway
      rwa [APRSISClient.phase, hlink] at hgateway
    have hopen : c.finished = false := h.unfinished (.inl (by rw [hlink]; rfl))
    have hclosing : c.closing = none := by
      cases hcases : c.closing with
      | none => rfl
      | some outcome => cases (h.closed (by rw [hcases]; rfl)).symm.trans hlink
    obtain ⟨link', hfollows, hlink'⟩ := pass_follows hgateway.diagnostics hgateway.reaches t link
    split
    · next link'' c' hrun =>
      rw [hrun] at hfollows hlink'
      obtain ⟨rfl, -⟩ := hlink' link'' rfl
      obtain ⟨-, -, hfinished, hkept⟩ := hfollows.kept
      exact .of_up (hgateway.follows hfollows) (hfinished.trans hopen) (hkept.trans hclosing)
    · next c' hrun =>
      rw [hrun] at hfollows
      exact closeConnection_sound (hgateway.follows hfollows) (hfollows.kept.2.2.1.trans hopen)
        random _
    · next ending c' hrun =>
      rw [hrun] at hfollows
      exact closeConnection_sound (hgateway.follows hfollows) (hfollows.kept.2.2.1.trans hopen)
        random _
  | closed waitClosed random =>
    rw [step]
    split
    · exact h
    next outcome hclosing =>
    have hsome : c.closing.isSome := by rw [hclosing]; rfl
    exact attemptEnded_sound (h.down (h.closed hsome)) (h.unfinished (.inr hsome)) random _
  | other call =>
    exact ⟨h.gateway.follows (.single (.other ⟨c.adapter, c.phase⟩ call) id), h.unfinished,
      h.closed⟩
  | stop =>
    exact ⟨⟨h.gateway.trace, h.gateway.diagnostics, h.gateway.retryDelay, h.gateway.backsOff⟩,
      h.unfinished, h.closed⟩
  | cancel =>
    rw [step]
    split
    · exact h
    next hnot =>
    simp only [Bool.or_eq_true, not_or, Bool.not_eq_true, Option.isSome_eq_false_iff,
      Option.isNone_iff_eq_none] at hnot
    obtain ⟨hlink, hclosing⟩ := hnot
    exact .of_down ⟨(h.down hlink).trace, h.gateway.diagnostics, fun h => (by cases h),
      h.gateway.backsOff⟩ hlink fun hsome => (by rw [hclosing] at hsome; cases hsome)

variable (cs core) in
theorem clientAfter_sound (inputs : List Input) : (clientAfter cs core inputs).Sound cs core := by
  induction inputs using List.reverseRecOn with
  | nil =>
    refine .of_down ⟨.refl _, ⟨fun _ he => absurd he List.not_mem_nil, fun _ he =>
      absurd he List.not_mem_nil⟩, fun _ => (baseDelay_zero cs.config).symm, ?_⟩ rfl fun _ => rfl
    exact fun _ hn => absurd hn (Nat.not_lt_zero _)
  | append_singleton inputs input ih =>
    rw [clientAfter, List.foldl_append]
    exact step_gateway ih input

/-- **The client is a gateway.** Whatever the network brings, whatever other tasks do with the
adapter in between, and however connections end: the log of the client is one of a gateway, so the
adapter has been handed exactly what the server sent to the service on verified connections, and all
that it sent was written there. No traffic precedes the verification of the login. -/
theorem client_isGateway (cs : ClientSetup) (core : CoreState) (inputs : List Input) :
    Trace (Gateway.Move cs) ⟨.initial core, .down⟩ (clientAfter cs core inputs).log
        ⟨(clientAfter cs core inputs).adapter, (clientAfter cs core inputs).phase⟩ ∧
      Quarantined cs.config (clientAfter cs core inputs).log := by
  have htrace := (clientAfter_sound cs core inputs).gateway.trace
  exact ⟨htrace, (Gateway.logged_of_trace htrace).1⟩

/-- **No connection stays open in silence.** A connection that is still open after a pass is
verified and has brought a line within the idle timeout, or it was opened within the login
timeout. -/
theorem link_watched (cs : ClientSetup) (core : CoreState) (inputs : List Input) (t : Turn)
    (random : Random) {link : Link}
    (hopen : (clientAfter cs core (inputs ++ [.turn t random])).link = some link) :
    (link.verified = true → ∃ now,
      ReadAt now (clientAfter cs core (inputs ++ [.turn t random])).log ∧
        t.ended < now + cs.config.idleTimeout) ∧
    (link.verified = false → ∃ now,
      OpenedAt now (clientAfter cs core (inputs ++ [.turn t random])).log ∧
        t.ended < now + cs.config.loginTimeout) := by
  have hsound := clientAfter_sound cs core (inputs ++ [.turn t random])
  have hlogged := (Gateway.logged_of_trace hsound.gateway.trace).2
  simp only [APRSISClient.phase, hopen] at hlogged
  have hbefore := clientAfter_sound cs core inputs
  have hdeadline : t.ended < link.deadline cs.config := by
    have hstep : clientAfter cs core (inputs ++ [.turn t random]) =
        step cs (clientAfter cs core inputs) (.turn t random) := by
      rw [clientAfter, List.foldl_append]
      rfl
    rw [hstep, step] at hopen
    split at hopen
    · next hnone => cases hnone.symm.trans hopen
    next link₀ _ =>
    obtain ⟨link', -, hlink'⟩ := pass_follows hbefore.gateway.diagnostics hbefore.gateway.reaches t
      link₀
    split at hopen
    · next link'' c' hrun =>
      obtain rfl := Option.some.inj hopen
      rw [hrun] at hlink'
      exact (hlink' link'' rfl).2
    · cases (closeConnection_link random _ _).symm.trans hopen
    · cases (closeConnection_link random _ _).symm.trans hopen
  rw [Link.deadline] at hdeadline
  constructor
  · intro hverified
    rw [if_pos hverified] at hdeadline
    exact ⟨_, (hlogged.1.verified hverified).2, hdeadline⟩
  · intro hnot
    rw [if_neg (by rw [hnot]; decide)] at hdeadline
    exact ⟨_, hlogged.1.opened, hdeadline⟩

theorem station_passcode_ne : str "12345" ≠ [] := by decide

theorem station_maxEntries_pos : 0 < 128 := by decide

theorem station_service_valid :
    validatePeer (Setup.standard true ⟨true, true⟩).serviceCallsign =
      .ok (Setup.standard true ⟨true, true⟩).serviceCallsign := rfl

/-- A station with the default configuration. -/
def station : ClientSetup where
  adapter := .standard true ⟨true, true⟩
  config := .standard (str "12345") station_passcode_ne
  diagnostics := ⟨120, 128, standard_idleTimeout_pos, station_maxEntries_pos⟩
  printable := fun _ => true
  service_valid := station_service_valid

/-- The server verifies the login after three seconds. -/
def verifiedLogin : Turn where
  atEof := false
  began := 2
  raw := .returns ((str "# logresp OPENQSP verified, server T2\r\n").map fun c =>
    UInt8.ofNat c.code)
  ended := 3
  clock := fun _ => 3
  drain := .returns ()

def zero : Random := ⟨0, le_rfl, one_pos⟩

theorem link_watched_verified : ∃ now, ReadAt now (clientAfter station ⟨.fresh, 1700000000, .empty⟩
    ([.connect (.returns ()) (.returns ()) 1 zero] ++ [.turn verifiedLogin zero])).log ∧
      verifiedLogin.ended < now + station.config.idleTimeout := by
  have hopen : (clientAfter station ⟨.fresh, 1700000000, .empty⟩
      ([.connect (.returns ()) (.returns ()) 1 zero] ++ [.turn verifiedLogin zero])).link =
        some ⟨1, 3, true⟩ := by decide +kernel
  exact (link_watched station _ _ verifiedLogin zero hopen).1 rfl

/-- **The client backs off.** In every run, what it waits after `n` failures in a row is, up to the
jitter, the reconnect delay doubled `n - 1` times, but no more than the maximum. -/
theorem retries_backOff (cs : ClientSetup) (core : CoreState) (inputs : List Input) :
    BacksOff cs.config (clientAfter cs core inputs).log :=
  (clientAfter_sound cs core inputs).gateway.backsOff

end AprsIS

end OpenQSP
