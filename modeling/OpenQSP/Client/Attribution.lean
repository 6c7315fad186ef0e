import Mathlib.Tactic.IntervalCases
import OpenQSP.Client.Reader
import OpenQSP.Lib.Runs

/-!
# Whose answer a request returns

A caller of the client, its reader and the server, with everything that is on its way between them.
The caller makes one request after the other, each in several steps, and may give up waiting at any
time; the server answers what it receives, in order, as late as it likes.

The frames of an answer do not say which request they answer. The numbers that the model gives to
the calls of `request`, and keeps with the frames, are not seen by either side: they only say
afterwards where a collected object came from.

## Main definitions

* `Exchange`, `Exchange.step` — the connection, and one step of any of the parties
* `Exchange.ServerCorrect`, `Exchange.Careful` — steps of a correct server, and of a careful caller
* `Exchange.Correct` — every result is the answer to its own request, and a client that waits for
  nothing refuses unmarked frames

## Main results

* **`requests_attributed`** — what holds in every run of a careful caller
* `requests_misattributed` — a caller who is not careful gets a foreign answer
-/

namespace OpenQSP

/-! ### The connection -/

/-- A frame on its way to the client: of the answer to the numbered request, or pushed. -/
inductive Transmission
  | answer (number : ℕ) (frame : Bytes)
  | push (frame : Bytes)

namespace Transmission

def frame : Transmission → Bytes
  | answer _ frame => frame
  | push frame => frame

/-- The request whose answer the frame belongs to. -/
def number? : Transmission → Option ℕ
  | answer number _ => some number
  | push _ => none

def answer? : Transmission → Option (ℕ × Bytes)
  | answer number frame => some (number, frame)
  | push _ => none

end Transmission

/-- Where the caller is in `request`. -/
inductive CallPhase
  | idle
  /-- The operation is registered as pending; nothing has been sent. -/
  | started (number : ℕ) (request : ProtocolObject)
  | waiting (number : ℕ) (request : ProtocolObject)
  deriving DecidableEq

/-- The objects that a call of `request` returns, or raises the error of. -/
structure CallResult where
  number : ℕ
  responses : List ProtocolObject
  /-- For each object, the request whose answer it was sent in. -/
  origins : List (Option ℕ)

/-- A client, a server, and what is between them. -/
structure Exchange where
  client : ClientState
  phase : CallPhase
  /-- How many calls have registered an operation. -/
  made : ℕ
  /-- Requests that were handed over to the network and are not answered. -/
  requests : List (ℕ × ProtocolObject)
  /-- Frames of answers that the server has yet to write. -/
  answering : List (ℕ × Bytes)
  wire : List Transmission
  /-- For each collected object, the request whose answer it was sent in. -/
  origins : List (Option ℕ)
  answered : List (ℕ × List Bytes)
  results : List CallResult

/-- A step of the caller, the reader, the server or the network. -/
inductive ExchangeEvent
  | start (request : ProtocolObject)
  | send
  /-- `sendall` raises `OSError`, before or after the whole request is handed over. -/
  | sendFails (handedOver : Bool)
  | finish
  | fail
  | timeout
  | answer (frames : List Bytes)
  | write
  | push (frame : Bytes)
  | read
  | disconnect

namespace Exchange

/-- The connection right after the authentication. -/
def fresh : Exchange where
  client := ⟨true, true, none, [], [], none⟩
  phase := .idle
  made := 0
  requests := []
  answering := []
  wire := []
  origins := []
  answered := []
  results := []

/-- A call that is not refused: no other one is in progress, and the connection is up. -/
def Starts (s : Exchange) (request : ProtocolObject) : Prop :=
  s.phase = .idle ∧ (clientOperation request).isSome ∧ s.client.connected ∧ s.client.failure = none

instance (s : Exchange) (request : ProtocolObject) : Decidable (s.Starts request) :=
  inferInstanceAs (Decidable (_ ∧ _ ∧ _ ∧ _))

/-- `sendall(encode_frame(request))`, which only an `OSError` is caught of. -/
def sendRequest (s : Exchange) (handedOver : Bool) (client : ClientState) : Exchange :=
  match s.phase with
  | .started number request =>
    -- The assertion that there is a socket comes first.
    if ¬s.client.connected then { s with phase := .idle }
    else match encodeFrame request false with
      | .error _ => { s with phase := .idle }
      | .ok _ => { s with
          client
          phase := .waiting number request
          requests := if handedOver then s.requests ++ [(number, request)] else s.requests }
  | _ => s

/-- One round of the loop in which `request` waits. -/
def wait (s : Exchange) (complete : ℕ → Exchange) (failed timedOut : Exchange) : Exchange :=
  match s.phase with
  | .waiting number _ =>
    if OpenQSP.complete s.client.pendingOperation s.client.responses then complete number
    else if s.client.failure ≠ none then failed
    else timedOut
  | _ => s

/-- A step that its party cannot take leaves everything as it is. -/
def step (s : Exchange) : ExchangeEvent → Exchange
  | .start request =>
    if s.Starts request then { s with
      client := { s.client with pendingOperation := clientOperation request, responses := [] }
      phase := .started s.made request
      made := s.made + 1
      origins := [] }
    else s
  | .send => s.sendRequest true s.client
  | .sendFails handedOver => s.sendRequest handedOver (s.client.setFailure .sendFailed)
  | .finish => s.wait (fun number => { s with
      client := { s.client with pendingOperation := none, responses := [] }
      phase := .idle
      origins := []
      results := s.results ++ [⟨number, s.client.responses, s.origins⟩] }) s s
  | .fail => s.wait (fun _ => s) { s with phase := .idle } s
  | .timeout => s.wait (fun _ => s) s { s with
      client := { s.client with pendingOperation := none }
      phase := .idle }
  | .answer frames =>
    match s.requests with
    | [] => s
    | (number, _) :: rest => { s with
        requests := rest
        answering := s.answering ++ frames.map (number, ·)
        answered := s.answered ++ [(number, frames)] }
  | .write =>
    match s.answering with
    | [] => s
    | (number, frame) :: rest => { s with
        answering := rest
        wire := s.wire ++ [.answer number frame] }
  | .push frame => { s with wire := s.wire ++ [.push frame] }
  | .read =>
    match s.wire with
    | [] => s
    | sent :: rest =>
      if s.client.connected ∧ s.client.reading then { s with
        client := s.client.readFrame sent.frame
        wire := rest
        origins :=
          if (s.client.readFrame sent.frame).responses = s.client.responses then s.origins
          else s.origins ++ [sent.number?] }
      else s
  | .disconnect =>
    if s.client.connected ∧ s.client.reading then
      { s with client := s.client.setFailure .disconnected }
    else s

/-! ### What is promised, and when -/

/-- The frames of answers that the client has not read. -/
def unread (s : Exchange) : List (ℕ × Bytes) := s.wire.filterMap Transmission.answer? ++ s.answering

/-- An answer, or a part of one, is still to come. -/
def Outstanding (s : Exchange) : Prop := s.requests ≠ [] ∨ s.unread ≠ []

/-- The server answers correctly, and marks what it pushes. -/
def ServerCorrect (s : Exchange) : ExchangeEvent → Prop
  | .answer frames => ∀ number request rest, s.requests = (number, request) :: rest →
      ∃ responses, Answers request responses ∧
        List.Forall₂ (fun response data => encodeFrame response false = .ok data) responses frames
  | .push frame => ∃ obj, encodeFrame obj true = .ok frame
  | _ => True

/-- The caller does not start a request while an answer is to come, nor one that cannot be encoded,
and the connection does not break between the start of a request and its sending. -/
def Careful (s : Exchange) : ExchangeEvent → Prop
  | .start request => s.Starts request → Encodable request ∧ ¬s.Outstanding
  | .sendFails handedOver => handedOver = true
  | .disconnect => ∀ number request, s.phase ≠ .started number request
  | _ => True

/-- The result has the frames that the server sent in answer to the same request, and no others. -/
def Attributed (s : Exchange) (result : CallResult) : Prop :=
  ∃ frames, (result.number, frames) ∈ s.answered ∧
    frames.map decodeFrame = result.responses.map .ok ∧
    result.origins = List.replicate frames.length (some result.number)

structure Correct (s : Exchange) : Prop where
  attributed : ∀ result ∈ s.results, s.Attributed result
  pending_none : s.phase = .idle → ¬s.Outstanding → s.client.pendingOperation = none
  refuses : s.phase = .idle → ¬s.Outstanding → ∀ obj frame, encodeFrame obj false = .ok frame →
    s.client.readFrame frame = s.client.setFailure .unmarkedFrame

/-! ### The invariant -/

variable {s s' : Exchange} {number : ℕ} {request : ProtocolObject}

/-- No call is in progress. After a failure the operation may be pending for good, but then its
answer is still to come, and nothing reads it. -/
def Rests (s : Exchange) : Prop :=
  s.client.pendingOperation = none ∨ (s.client.connected = false ∧ s.Outstanding)

/-- A request is about to be sent, and the connection has nothing left over from an earlier one. -/
structure Ready (s : Exchange) (request : ProtocolObject) : Prop where
  pending : s.client.pendingOperation = clientOperation request
  isSome : (clientOperation request).isSome
  connected : s.client.connected = true
  encodable : Encodable request
  nothing : ¬s.Outstanding
  responses : s.client.responses = []
  origins : s.origins = []

/-- Where the answer to the only request of the connection is. -/
inductive Collects (s : Exchange) (number : ℕ) (request : ProtocolObject) : Prop
  | unanswered (hrequests : s.requests = [(number, request)]) (hunread : s.unread = [])
      (hresponses : s.client.responses = []) (horigins : s.origins = [])
  /-- The client has read `k` frames of the answer. -/
  | answered (responses : List ProtocolObject) (frames : List Bytes) (k : ℕ)
      (hanswers : Answers request responses)
      (hframes : List.Forall₂ (fun response data => encodeFrame response false = .ok data)
        responses frames)
      (hanswered : (number, frames) ∈ s.answered) (hrequests : s.requests = [])
      (hk : k ≤ frames.length) (hunread : s.unread = (frames.drop k).map (number, ·))
      (hresponses : s.client.responses = responses.take k)
      (horigins : s.origins = List.replicate k (some number))

structure Awaits (s : Exchange) (number : ℕ) (request : ProtocolObject) : Prop where
  pending : s.client.pendingOperation = clientOperation request
  isSome : (clientOperation request).isSome
  collects : s.Collects number request

def PhaseInv (s : Exchange) : Prop :=
  match s.phase with
  | .idle => s.Rests
  | .started _ request => s.Ready request
  | .waiting number request => s.Awaits number request

structure Inv (s : Exchange) : Prop where
  failed : s.client.failure ≠ none → s.client.connected = false
  pushes : ∀ frame, .push frame ∈ s.wire → ∃ obj, encodeFrame obj true = .ok frame
  attributed : ∀ result ∈ s.results, s.Attributed result
  phase : s.PhaseInv

theorem inv_fresh : Inv fresh where
  failed := fun h => (h rfl).elim
  pushes := nofun
  attributed := nofun
  phase := .inl rfl

theorem Attributed.mono {result : CallResult} (h : s.Attributed result)
    (hanswered : s.answered ⊆ s'.answered) : s'.Attributed result := by
  obtain ⟨frames, hmem, h⟩ := h
  exact ⟨frames, hanswered hmem, h⟩

/-- What the invariant says about the phase does not depend on the pushed frames and the events. -/
structure SamePhase (s s' : Exchange) : Prop where
  phase : s'.phase = s.phase
  pending : s'.client.pendingOperation = s.client.pendingOperation
  connected : s'.client.connected = s.client.connected
  responses : s'.client.responses = s.client.responses
  requests : s'.requests = s.requests
  unread : s'.unread = s.unread
  origins : s'.origins = s.origins
  answered : s'.answered = s.answered

theorem SamePhase.outstanding (h : SamePhase s s') : s'.Outstanding ↔ s.Outstanding := by
  rw [Outstanding, Outstanding, h.requests, h.unread]

theorem PhaseInv.congr (hs : s.PhaseInv) (h : SamePhase s s') : s'.PhaseInv := by
  rw [PhaseInv] at hs ⊢
  rw [h.phase]
  cases hphase : s.phase with
  | idle =>
    rw [hphase] at hs
    exact hs.imp (fun hs => h.pending.trans hs) fun hs =>
      ⟨h.connected.trans hs.1, h.outstanding.mpr hs.2⟩
  | started number request =>
    rw [hphase] at hs
    exact ⟨h.pending.trans hs.pending, hs.isSome, h.connected.trans hs.connected, hs.encodable,
      fun hout => hs.nothing (h.outstanding.mp hout), h.responses.trans hs.responses,
      h.origins.trans hs.origins⟩
  | waiting number request =>
    rw [hphase] at hs
    refine ⟨h.pending.trans hs.pending, hs.isSome, ?_⟩
    cases hs.collects with
    | unanswered hrequests hunread hresponses horigins =>
      exact .unanswered (h.requests.trans hrequests) (h.unread.trans hunread)
        (h.responses.trans hresponses) (h.origins.trans horigins)
    | answered responses frames k hanswers hframes hanswered hrequests hk hunread hresponses
        horigins =>
      exact .answered responses frames k hanswers hframes (h.answered ▸ hanswered)
        (h.requests.trans hrequests) hk (h.unread.trans hunread) (h.responses.trans hresponses)
        (h.origins.trans horigins)

/-! ### The steps of the caller -/

theorem Inv.start (hs : s.Inv) (hcareful : s.Careful (.start request)) :
    (s.step (.start request)).Inv := by
  rw [step]
  split
  · next hstarts =>
    obtain ⟨hencodable, hnothing⟩ := hcareful hstarts
    obtain ⟨-, hisSome, hconnected, -⟩ := hstarts
    exact ⟨hs.failed, hs.pushes, hs.attributed,
      ⟨rfl, hisSome, hconnected, hencodable, hnothing, rfl, rfl⟩⟩
  · exact hs

theorem Inv.sendRequest (hs : s.Inv) {client : ClientState}
    (hpending : client.pendingOperation = s.client.pendingOperation)
    (hresponses : client.responses = s.client.responses)
    (hfailed : client.failure ≠ none → client.connected = false) :
    (s.sendRequest true client).Inv := by
  have hphase := hs.phase
  rw [PhaseInv] at hphase
  rw [Exchange.sendRequest]
  cases h : s.phase with
  | idle => exact hs
  | waiting number request => exact hs
  | started number request =>
    rw [h] at hphase
    obtain ⟨frame, hframe⟩ := hphase.encodable
    obtain ⟨hrequests, hunread⟩ := not_or.mp hphase.nothing
    rw [not_not] at hrequests hunread
    dsimp only
    rw [if_neg (not_not.mpr hphase.connected), hframe, hrequests]
    refine ⟨hfailed, hs.pushes, hs.attributed, hpending.trans hphase.pending, hphase.isSome, ?_⟩
    exact .unanswered rfl hunread (hresponses.trans hphase.responses) hphase.origins

/-- The collected objects are complete exactly when the whole answer has been read. -/
theorem Awaits.attributed (hs : s.Awaits number request)
    (hcomplete : complete s.client.pendingOperation s.client.responses = true) :
    s.Attributed ⟨number, s.client.responses, s.origins⟩ := by
  obtain ⟨operation, hoperation⟩ := Option.isSome_iff_exists.mp hs.isSome
  rw [hs.pending, hoperation] at hcomplete
  cases hs.collects with
  | unanswered hrequests hunread hresponses horigins =>
    rw [hresponses] at hcomplete
    exact absurd hcomplete Bool.false_ne_true
  | answered responses frames k hanswers hframes hanswered hrequests hk hunread hresponses
      horigins =>
    have hlen := hframes.length_eq
    rw [hresponses] at hcomplete
    obtain rfl := (hanswers.complete_take_iff hoperation (hlen ▸ hk)).mp hcomplete
    rw [List.take_length] at hresponses
    refine ⟨frames, hanswered, ?_, ?_⟩
    · rw [hresponses]
      exact map_decodeFrame hframes
    · rw [horigins, hlen]

theorem Awaits.outstanding (hs : s.Awaits number request)
    (hcomplete : complete s.client.pendingOperation s.client.responses = false) :
      s.Outstanding := by
  obtain ⟨operation, hoperation⟩ := Option.isSome_iff_exists.mp hs.isSome
  rw [hs.pending, hoperation] at hcomplete
  cases hs.collects with
  | unanswered hrequests hunread hresponses horigins =>
    exact .inl (hrequests ▸ List.cons_ne_nil _ _)
  | answered responses frames k hanswers hframes hanswered hrequests hk hunread hresponses
      horigins =>
    have hlen := hframes.length_eq
    rw [hresponses] at hcomplete
    have hne : k ≠ responses.length := fun heq => Bool.false_ne_true
      (hcomplete.symm.trans ((hanswers.complete_take_iff hoperation (hlen ▸ hk)).mpr heq))
    refine .inr ?_
    rw [hunread, Ne, List.map_eq_nil_iff, List.drop_eq_nil_iff]
    omega

theorem Inv.wait (hs : s.Inv) {complete : ℕ → Exchange} {failed timedOut : Exchange}
    (hcomplete : ∀ number, s.Attributed ⟨number, s.client.responses, s.origins⟩ →
      (complete number).Inv)
    (hfailed : s.client.failure ≠ none → s.Outstanding → failed.Inv) (htimedOut : timedOut.Inv) :
    (s.wait complete failed timedOut).Inv := by
  have hphase := hs.phase
  rw [PhaseInv] at hphase
  rw [Exchange.wait]
  cases h : s.phase with
  | idle => exact hs
  | started number request => exact hs
  | waiting number request =>
    rw [h] at hphase
    dsimp only
    split
    · next hdone => exact hcomplete number (hphase.attributed hdone)
    · next hnot =>
      split
      · next hfailure =>
          exact hfailed hfailure (hphase.outstanding (Bool.eq_false_of_not_eq_true hnot))
      · exact htimedOut

theorem Inv.finish (hs : s.Inv) : (s.step .finish).Inv := by
  refine hs.wait (fun number hresult => ⟨hs.failed, hs.pushes, ?_, .inl rfl⟩) (fun _ _ => hs) hs
  intro result hmem
  rcases List.mem_append.mp hmem with hmem | hmem
  · exact hs.attributed result hmem
  · obtain rfl := List.mem_singleton.mp hmem
    exact hresult

theorem Inv.fail (hs : s.Inv) : (s.step .fail).Inv :=
  hs.wait (fun _ _ => hs) (fun hfailure hout =>
    ⟨hs.failed, hs.pushes, hs.attributed, .inr ⟨hs.failed hfailure, hout⟩⟩) hs

theorem Inv.timeout (hs : s.Inv) : (s.step .timeout).Inv :=
  hs.wait (fun _ _ => hs) (fun _ _ => hs) ⟨hs.failed, hs.pushes, hs.attributed, .inl rfl⟩

/-! ### The steps of the server -/

theorem Inv.answer (hs : s.Inv) {frames : List Bytes} (hserver : s.ServerCorrect (.answer frames)) :
    (s.step (.answer frames)).Inv := by
  rw [step]
  cases hrequests : s.requests with
  | nil => exact hs
  | cons head rest =>
    obtain ⟨number, request⟩ := head
    obtain ⟨responses, hanswers, hframes⟩ := hserver number request rest hrequests
    have hne : frames ≠ [] := by
      rintro rfl
      exact hanswers.ne_nil (List.forall₂_nil_right_iff.mp hframes)
    have hphase := hs.phase
    rw [PhaseInv] at hphase
    refine ⟨hs.failed, hs.pushes, fun result hmem =>
      (hs.attributed result hmem).mono (List.subset_append_left _ _), ?_⟩
    rw [PhaseInv]
    dsimp only
    cases h : s.phase with
    | idle =>
      rw [h] at hphase
      refine hphase.imp id fun hdown => ⟨hdown.1, .inr ?_⟩
      rw [unread, ← List.append_assoc]
      exact List.append_ne_nil_of_right_ne_nil _ (mt List.map_eq_nil_iff.mp hne)
    | started number request =>
      rw [h] at hphase
      exact absurd (.inl (hrequests ▸ List.cons_ne_nil _ _)) hphase.nothing
    | waiting number request =>
      rw [h] at hphase
      refine ⟨hphase.pending, hphase.isSome, ?_⟩
      cases hphase.collects with
      | unanswered hrequests' hunread hresponses horigins =>
        obtain ⟨hhead, rfl⟩ := List.cons.inj (hrequests.symm.trans hrequests')
        obtain ⟨rfl, rfl⟩ := Prod.mk.inj hhead
        refine .answered responses frames 0 hanswers hframes
          (List.mem_append_right _ (List.mem_singleton_self _)) rfl (Nat.zero_le _) ?_ hresponses
            horigins
        rw [unread, ← List.append_assoc]
        exact congrArg (· ++ frames.map (number, ·)) hunread
      | answered _ _ _ _ _ _ hrequests' =>
        exact absurd (hrequests.symm.trans hrequests') (List.cons_ne_nil _ _)

theorem Inv.write (hs : s.Inv) : (s.step .write).Inv := by
  rw [step]
  cases hanswering : s.answering with
  | nil => exact hs
  | cons head rest =>
    obtain ⟨number, frame⟩ := head
    refine ⟨hs.failed, fun frame hmem => hs.pushes frame ?_, hs.attributed, hs.phase.congr ?_⟩
    · rcases List.mem_append.mp hmem with hmem | hmem
      · exact hmem
      · cases List.mem_singleton.mp hmem
    · refine ⟨rfl, rfl, rfl, rfl, rfl, ?_, rfl, rfl⟩
      rw [unread, unread, hanswering, List.filterMap_append, List.append_assoc]
      rfl

theorem Inv.push (hs : s.Inv) {frame : Bytes} (hserver : s.ServerCorrect (.push frame)) :
    (s.step (.push frame)).Inv := by
  rw [step]
  refine ⟨hs.failed, fun frame hmem => ?_, hs.attributed, hs.phase.congr ?_⟩
  · rcases List.mem_append.mp hmem with hmem | hmem
    · exact hs.pushes frame hmem
    · cases List.mem_singleton.mp hmem
      exact hserver
  · refine ⟨rfl, rfl, rfl, rfl, rfl, ?_, rfl, rfl⟩
    rw [unread, unread, List.filterMap_append]
    exact congrArg (· ++ s.answering) (List.append_nil _)

/-! ### The reader, and the network -/

theorem Inv.read (hs : s.Inv) : (s.step .read).Inv := by
  rw [step]
  cases hwire : s.wire with
  | nil => exact hs
  | cons sent rest =>
    dsimp only
    split
    · next hup =>
      have hpushes : ∀ frame, .push frame ∈ rest → ∃ obj, encodeFrame obj true = .ok frame :=
        fun frame hmem => hs.pushes frame (hwire ▸ List.mem_cons_of_mem _ hmem)
      have hfailed := s.client.readFrame_failed sent.frame hs.failed
      have hpending := s.client.readFrame_pendingOperation sent.frame
      cases sent with
      | push frame =>
        obtain ⟨obj, hobj⟩ := hs.pushes frame (hwire ▸ List.mem_cons_self)
        have hread : s.client.readFrame frame =
          { s.client with events := s.client.events ++ [obj] } :=
          ClientState.readFrame_push hobj
        rw [Transmission.frame, hread, if_pos rfl]
        refine ⟨hs.failed, hpushes, hs.attributed,
          hs.phase.congr ⟨rfl, rfl, rfl, rfl, rfl, ?_, rfl, rfl⟩⟩
        rw [unread, unread, hwire]
        rfl
      | answer number frame =>
        refine ⟨hfailed, hpushes, hs.attributed, ?_⟩
        have hunread : s.unread = (number, frame) :: (rest.filterMap Transmission.answer? ++
            s.answering) := by
          rw [unread, hwire]
          rfl
        have hphase := hs.phase
        rw [PhaseInv] at hphase ⊢
        dsimp only
        cases h : s.phase with
        | idle =>
          rw [h] at hphase
          rcases hphase with hnone | ⟨hdown, -⟩
          · exact .inl (hpending.trans hnone)
          · exact absurd (hup.1.symm.trans hdown) (by decide)
        | started _ _ =>
          rw [h] at hphase
          exact absurd (.inr (hunread ▸ List.cons_ne_nil _ _)) hphase.nothing
        | waiting number' request =>
          rw [h] at hphase
          refine ⟨hpending.trans hphase.pending, hphase.isSome, ?_⟩
          cases hphase.collects with
          | unanswered hrequests hnil hresponses horigins =>
            exact absurd (hunread.symm.trans hnil) (List.cons_ne_nil _ _)
          | answered responses frames k hanswers hframes hanswered hrequests hk hdrop hresponses
              horigins =>
            have hlen := hframes.length_eq
            obtain ⟨operation, hoperation⟩ := Option.isSome_iff_exists.mp hphase.isSome
            rw [hunread] at hdrop
            have hlt : k < frames.length := by
              by_contra hge
              rw [List.drop_of_length_le (Nat.le_of_not_lt hge)] at hdrop
              exact absurd hdrop (List.cons_ne_nil _ _)
            rw [List.drop_eq_getElem_cons hlt, List.map_cons] at hdrop
            obtain ⟨hhead, htail⟩ := List.cons.inj hdrop
            obtain ⟨rfl, rfl⟩ := Prod.mk.inj hhead
            have hread := ClientState.readFrame_response (hphase.pending.trans hoperation)
              (hframes.get (hlen ▸ hlt) hlt)
            rw [List.get_eq_getElem, List.get_eq_getElem] at hread
            refine .answered responses frames (k + 1) hanswers hframes hanswered hrequests hlt
              htail ?_ ?_
            · dsimp only
              rw [Transmission.frame, hread, hresponses]
              exact List.take_append_getElem (hlen ▸ hlt)
            · dsimp only
              rw [Transmission.frame, hread, if_neg (by simp), horigins, List.replicate_succ']
              rfl
    · exact hs

theorem Inv.disconnect (hs : s.Inv) (hcareful : s.Careful .disconnect) :
    (s.step .disconnect).Inv := by
  rw [step]
  split
  · next hup =>
    refine ⟨fun _ => rfl, hs.pushes, hs.attributed, ?_⟩
    have hphase := hs.phase
    rw [PhaseInv] at hphase ⊢
    dsimp only
    cases h : s.phase with
    | idle =>
      rw [h] at hphase
      exact hphase.imp id fun hdown => ⟨rfl, hdown.2⟩
    | started number request => exact absurd h (hcareful number request)
    | waiting number request =>
      rw [h] at hphase
      refine ⟨hphase.pending, hphase.isSome, ?_⟩
      cases hphase.collects with
      | unanswered hrequests hunread hresponses horigins =>
        exact .unanswered hrequests hunread hresponses horigins
      | answered responses frames k hanswers hframes hanswered hrequests hk hunread hresponses
          horigins =>
        exact .answered responses frames k hanswers hframes hanswered hrequests hk hunread
          hresponses
          horigins
  · exact hs

/-- A correct server and a careful caller keep the invariant. -/
theorem Inv.step (hs : s.Inv) {event : ExchangeEvent} (hserver : s.ServerCorrect event)
    (hcareful : s.Careful event) : (s.step event).Inv := by
  cases event with
  | start request => exact hs.start hcareful
  | send => exact hs.sendRequest rfl rfl hs.failed
  | sendFails handedOver =>
    obtain rfl : handedOver = true := hcareful
    exact hs.sendRequest rfl rfl fun _ => rfl
  | finish => exact hs.finish
  | fail => exact hs.fail
  | timeout => exact hs.timeout
  | answer frames => exact hs.answer hserver
  | write => exact hs.write
  | push frame => exact hs.push hserver
  | read => exact hs.read
  | disconnect => exact hs.disconnect hcareful

theorem Inv.correct (hs : s.Inv) : s.Correct := by
  have hpending : s.phase = .idle → ¬s.Outstanding → s.client.pendingOperation = none := by
    intro hidle hnothing
    have hphase := hs.phase
    rw [PhaseInv, hidle] at hphase
    exact hphase.resolve_right fun hdown => hnothing hdown.2
  exact ⟨hs.attributed, hpending, fun hidle hnothing obj frame hframe =>
    ClientState.readFrame_unmarked (hpending hidle hnothing) hframe⟩

end Exchange

/-- **Response attribution.** The server answers every request correctly and in order, however late,
and pushes what it likes; the caller may give up waiting at any time, but does not start a request
while an answer to an earlier one is to come, nor one that cannot be encoded. Then every result is
made of the frames sent in answer to the same request, and a client that waits for nothing refuses
unmarked frames. -/
theorem requests_attributed (events : List ExchangeEvent)
    (hserver : ∀ i (h : i < events.length),
      (stateAt Exchange.step .fresh events i).ServerCorrect events[i])
    (hcareful : ∀ i (h : i < events.length),
      (stateAt Exchange.step .fresh events i).Careful events[i]) :
    ∀ i ≤ events.length, (stateAt Exchange.step .fresh events i).Correct := fun i hi =>
  (stateAt_invariant (I := Exchange.Inv) Exchange.inv_fresh
    (fun j hj hs => hs.step (hserver j hj) (hcareful j hj)) i hi).correct

/-- A request that is answered. -/
def answeredRequest : List ExchangeEvent :=
  [.start .getCapabilities, .send, .answer [[1, 70, 0, 5, 1, 0, 0, 0, 15]], .write, .read, .finish]

theorem requests_attributed_answered :
    (stateAt Exchange.step .fresh answeredRequest 6).results.map (·.origins) = [[some 0]] ∧
      (stateAt Exchange.step .fresh answeredRequest 6).Correct := by
  refine ⟨by decide +kernel,
    requests_attributed answeredRequest (fun i h => ?_) (fun i h => ?_) 6 le_rfl⟩
  · have hlt : i < 6 := h
    interval_cases i
    case «2» =>
      rintro number request rest ⟨⟩
      exact ⟨[.capabilities ⟨1, 15⟩], .capabilities _, .cons (by decide +kernel) .nil⟩
    all_goals exact trivial
  · have hlt : i < 6 := h
    interval_cases i
    case «0» => exact fun _ => ⟨⟨[1, 5, 0, 0], by decide +kernel⟩, fun h =>
      h.elim (absurd rfl) (absurd rfl)⟩
    all_goals exact trivial

/-- The first message is not answered in time, and its answer arrives when the second one waits. -/
def lateAnswer : List ExchangeEvent :=
  [.start (.sendMessage ⟨1700000000, str "K1XYZ", str "one"⟩), .send, .timeout,
    .start (.sendMessage ⟨1700000001, str "K1XYZ", str "two"⟩), .send,
    .answer [[1, 68, 0, 0]], .write, .read, .finish]

/-- A message without a body. -/
def unencodableRequest : List ExchangeEvent :=
  [.start (.sendMessage ⟨1700000000, str "K1XYZ", str ""⟩), .send]

/-- The late answer to the first message is returned for the second one, which the server has not
even answered; and a request that cannot be encoded stays pending. -/
theorem requests_misattributed :
    ((∀ i (h : i < lateAnswer.length),
        (stateAt Exchange.step .fresh lateAnswer i).ServerCorrect lateAnswer[i]) ∧
      ¬(stateAt Exchange.step .fresh lateAnswer lateAnswer.length).Correct) ∧
    (∀ i (h : i < unencodableRequest.length),
        (stateAt Exchange.step .fresh unencodableRequest i).ServerCorrect unencodableRequest[i]) ∧
      ¬(stateAt Exchange.step .fresh unencodableRequest unencodableRequest.length).Correct := by
  refine ⟨⟨fun i h => ?_, fun hcorrect => ?_⟩, fun i h => ?_, fun hcorrect => ?_⟩
  · have hlt : i < 9 := h
    interval_cases i
    case «5» =>
      rintro number request rest ⟨⟩
      exact ⟨[.stored], .stored _, .cons (by decide +kernel) .nil⟩
    all_goals exact trivial
  · have hresult : (stateAt Exchange.step .fresh lateAnswer 9).results =
        [⟨1, [.stored], [some 0]⟩] := rfl
    obtain ⟨frames, hanswered, -⟩ := hcorrect.attributed _ (hresult ▸ List.mem_singleton_self _)
    have honly : (stateAt Exchange.step .fresh lateAnswer 9).answered = [(0, [[1, 68, 0, 0]])] :=
      rfl
    cases List.mem_singleton.mp (honly ▸ hanswered)
  · have hlt : i < 2 := h
    interval_cases i
    all_goals exact trivial
  · have hpending : (stateAt Exchange.step .fresh unencodableRequest 2).client.pendingOperation =
        some .sendMessage := rfl
    have hnone := hcorrect.pending_none rfl fun h => h.elim (absurd rfl) (absurd rfl)
    exact absurd (hpending.symm.trans hnone) (Option.some_ne_none _)

end OpenQSP
