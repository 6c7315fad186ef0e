import OpenQSP.Server.Frames

/-!
# Where a response ends

The reader of the reference client cuts the byte stream into frames, keeps what the server pushed as
events, and collects the rest for the request that is waiting. The frames carry no request number,
so the client has to see from the collected objects that a response has ended. It does so with rules
of its own, written apart from the server's handlers.

## Main definitions

* `ClientState`, `ClientState.readFrame`, `ClientState.read` — the client as its reader sees it
* `complete` — the client's rules for the end of a response
* `Sent` — what the server writes while it answers

## Main results

* `Answers.complete_take_iff` — an answer is complete with its last object and not before
* `ClientState.readerLoop_flatten` — any chunks of the stream are cut at the ends of the frames
* **`responseEnds_agree`** — client and server agree on where a response ends
-/

namespace OpenQSP

/-! ### The client -/

/-- Why a connection is over. -/
inductive ClientFailure
  | disconnected
  | sendFailed
  | invalidFrame (e : PyError)
  | unmarkedFrame
  deriving DecidableEq

/-- What the reader and the callers of a client share. -/
structure ClientState where
  /-- `_socket is not None` -/
  connected : Bool
  /-- The reader thread is in its loop. -/
  reading : Bool
  pendingOperation : Option Operation
  responses : List ProtocolObject
  events : List ProtocolObject
  failure : Option ClientFailure
  deriving DecidableEq

/-- The operation of a request that a client may make. -/
def clientOperation : ProtocolObject → Option Operation
  | .sendMessage _ => some .sendMessage
  | .getNewMessages _ => some .getNewMessages
  | .getNewBulletins _ => some .getNewBulletins
  | .getBulletin _ => some .getBulletin
  | .getCapabilities => some .getCapabilities
  | _ => none

/-- `_complete`, of the pending operation and the collected objects. -/
def complete (pendingOperation : Option Operation) (responses : List ProtocolObject) : Bool :=
  match responses.getLast? with
  | none => false
  | some (.error _) => true
  | some last =>
    match pendingOperation, last with
    | some .sendMessage, .stored => true
    | some .getNewMessages, .end value => value.requestOperation = .getNewMessages
    | some .getNewBulletins, .end value => value.requestOperation = .getNewBulletins
    | some .getBulletin, .bulletin _ => true
    | some .getCapabilities, .capabilities _ => true
    | _, _ => false

namespace ClientState

/-- `_set_failure` -/
def setFailure (failure : ClientFailure) (s : ClientState) : ClientState :=
  { s with connected := false, failure := some failure }

/-- The body of the reader's loop, once it has read a frame. -/
def readFrame (s : ClientState) (data : Bytes) : ClientState :=
  match decodeFrameWithFlags data with
  | .ok (obj, flags) =>
    if flags &&& unsolicitedFlag ≠ 0 then { s with events := s.events ++ [obj] }
    else if s.pendingOperation = none then s.setFailure .unmarkedFrame
    else { s with responses := s.responses ++ [obj] }
  | .error e =>
    if e.isA .protocolDecodeError ∨ e.isA .invalidFieldError ∨ e.isA .valueError then
      s.setFailure (.invalidFrame e)
    -- What is not caught ends the reader thread.
    else { s with reading := false }

end ClientState

/-- The first frame of a stream, once all its bytes have arrived, and what is behind it. -/
def nextFrame (stream : Bytes) : Option (Bytes × Bytes) :=
  if stream.length < headerSize then none
  else
    let size := headerSize + (stream.getD 3 0).toNat
    if stream.length < size then none else some (stream.take size, stream.drop size)

namespace ClientState

/-- `_reader_loop` on the bytes that have arrived; the result has those that are not read yet. -/
def readerLoop : ℕ → ClientState → Bytes → ClientState × Bytes
  | 0, s, stream => (s, stream)
  | fuel + 1, s, stream =>
    if ¬(s.connected ∧ s.reading) then (s, stream)
    else match nextFrame stream with
      | none => (s, stream)
      | some (frame, rest) => readerLoop fuel (s.readFrame frame) rest

/-- A frame has at least one byte, so this is enough fuel. -/
def read (s : ClientState) (stream : Bytes) : ClientState × Bytes :=
  s.readerLoop (stream.length + 1) stream

end ClientState

/-! ### The end of a response -/

section Complete

variable {operation : Operation} {front : List ProtocolObject} {last : ProtocolObject} {k : ℕ}

/-- A response that is complete only with its last object. -/
theorem complete_take_concat (hlast : complete (some operation) (front ++ [last]) = true)
    (hfront : ∀ j ≤ front.length, complete (some operation) (front.take j) = false)
    (hk : k ≤ (front ++ [last]).length) :
    complete (some operation) ((front ++ [last]).take k) = true ↔ k = (front ++ [last]).length := by
  rw [List.length_append, List.length_singleton] at hk ⊢
  rcases Nat.lt_or_ge front.length k with hlt | hle
  · obtain rfl : k = front.length + 1 := by omega
    rw [List.take_of_length_le (by simp)]
    exact iff_of_true hlast rfl
  · rw [List.take_append_of_le_length hle, hfront k hle]
    exact iff_of_false Bool.false_ne_true (by omega)

theorem complete_take_singleton (hlast : complete (some operation) [last] = true)
    (hk : k ≤ [last].length) :
    complete (some operation) ([last].take k) = true ↔ k = [last].length := by
  have hconcat : complete (some operation) ([] ++ [last]) = true := hlast
  exact complete_take_concat hconcat (fun j _ => by rw [List.take_nil]; rfl) hk

/-- The objects of a page do not complete a response. -/
theorem complete_take_map {α : Type} {item : α → ProtocolObject} {items : List α}
    (hitem : ∀ a, complete (some operation) [item a] = false) {j : ℕ} :
    complete (some operation) ((items.map item).take j) = false := by
  rcases List.eq_nil_or_concat' (items.take j) with hnil | ⟨front, a, hconcat⟩
  · rw [← List.map_take, hnil]
    rfl
  · have h := hitem a
    rw [complete, List.getLast?_singleton] at h
    rw [← List.map_take, hconcat, List.map_append, List.map_singleton, complete,
      List.getLast?_concat]
    exact h

/-- An answer is complete with its last object, and not before. -/
theorem Answers.complete_take_iff {request : ProtocolObject} {responses : List ProtocolObject}
    (h : Answers request responses) (hoperation : clientOperation request = some operation)
    (hk : k ≤ responses.length) :
    complete (some operation) (responses.take k) = true ↔ k = responses.length := by
  cases h with
  | error error => exact complete_take_singleton rfl hk
  | stored request =>
    obtain rfl := Option.some.inj hoperation
    exact complete_take_singleton rfl hk
  | capabilities value =>
    obtain rfl := Option.some.inj hoperation
    exact complete_take_singleton rfl hk
  | bulletin request value =>
    obtain rfl := Option.some.inj hoperation
    exact complete_take_singleton rfl hk
  | message request value => cases hoperation
  | messages request messages count nextSince hasMore =>
    obtain rfl := Option.some.inj hoperation
    refine complete_take_concat ?_ (fun _ _ => complete_take_map fun _ => rfl) hk
    rw [complete, List.getLast?_concat]
    rfl
  | bulletins request headers count nextSince hasMore =>
    obtain rfl := Option.some.inj hoperation
    refine complete_take_concat ?_ (fun _ _ => complete_take_map fun _ => rfl) hk
    rw [complete, List.getLast?_concat]
    rfl

end Complete

/-! ### Cutting the stream -/

/-- A header that says how many bytes follow, and these. -/
def Framed (frame : Bytes) : Prop := ∃ b₀ b₁ b₂ payload, payload.length < 256 ∧
  frame = b₀ :: b₁ :: b₂ :: UInt8.ofNat payload.length :: payload

theorem Framed.of_encodeFrame {obj : ProtocolObject} {unsolicited : Bool} {frame : Bytes}
    (h : encodeFrame obj unsolicited = .ok frame) : Framed frame := by
  by_cases hobj : ∃ value, obj = .getMessage value
  · obtain ⟨value, rfl⟩ := hobj
    cases unsolicited with
    | true => cases h
    | false =>
      obtain ⟨peer, -, h⟩ := Py.bind_eq_ok.mp h
      obtain ⟨_, hlength, h⟩ := Py.bind_eq_ok.mp h
      obtain ⟨_, -, h⟩ := Py.bind_eq_ok.mp h
      obtain ⟨_, -, h⟩ := Py.bind_eq_ok.mp h
      obtain rfl := Except.ok.inj h
      rw [raiseIf_eq_ok, not_not, maxCallsignLength] at hlength
      refine ⟨_, _, _, _, ?_, rfl⟩
      simp only [List.length_append, List.length_singleton, length_toBigEndian]
      omega
  · rw [not_exists] at hobj
    obtain ⟨payload, -, hlen, -, rfl⟩ := encodeFrame_eq_ok hobj h
    exact ⟨_, _, _, payload, lt_of_le_of_lt hlen (by decide), rfl⟩

/-- A frame that has arrived is cut off. -/
theorem Framed.nextFrame_append {frame : Bytes} (h : Framed frame) (rest : Bytes) :
    nextFrame (frame ++ rest) = some (frame, rest) := by
  obtain ⟨b₀, b₁, b₂, payload, hlen, rfl⟩ := h
  have hsize : (UInt8.ofNat payload.length).toNat = payload.length := Nat.mod_eq_of_lt hlen
  have htotal : (b₀ :: b₁ :: b₂ :: UInt8.ofNat payload.length :: payload).length = headerSize +
      payload.length := by
    simp only [List.length_cons, headerSize]
    omega
  have hthird : ((b₀ :: b₁ :: b₂ :: UInt8.ofNat payload.length :: payload) ++ rest).getD 3 0 =
      UInt8.ofNat payload.length := rfl
  rw [nextFrame, if_neg (by rw [List.length_append, htotal]; omega), hthird, hsize]
  dsimp only
  rw [if_neg (by rw [List.length_append, htotal]; omega), ← htotal, List.take_left, List.drop_left]

/-- A frame that has not arrived completely is waited for. -/
theorem Framed.nextFrame_incomplete {frame part : Bytes} (h : Framed frame)
    (hbegins : part <+: frame)
    (hne : part ≠ frame) : nextFrame part = none := by
  obtain ⟨b₀, b₁, b₂, payload, hlen, rfl⟩ := h
  have hsize : (UInt8.ofNat payload.length).toNat = payload.length := Nat.mod_eq_of_lt hlen
  have hlt : part.length < payload.length + 4 := by
    refine lt_of_le_of_ne hbegins.length_le fun heq => hne (hbegins.eq_of_length ?_)
    rw [heq]
    rfl
  rw [nextFrame, headerSize]
  split
  · rfl
  · next hheader =>
    obtain ⟨tail, htail⟩ := hbegins
    have hthird : part.getD 3 0 = UInt8.ofNat payload.length := by
      have hthird := congrArg (fun l : Bytes => l.getD 3 0) htail
      simp only [List.getD_eq_getElem?_getD] at hthird ⊢
      rw [List.getElem?_append_left (by omega)] at hthird
      exact hthird
    rw [hthird, hsize]
    dsimp only
    rw [if_pos (by omega)]

namespace ClientState

variable {s : ClientState} {frame : Bytes} {obj : ProtocolObject}

/-- A frame of a response is collected while a request is pending. -/
theorem readFrame_response {operation : Operation} (hpending : s.pendingOperation = some operation)
    (h : encodeFrame obj false = .ok frame) :
    s.readFrame frame = { s with responses := s.responses ++ [obj] } := by
  rw [readFrame, decodeFrameWithFlags_of_encodeFrame h]
  simp only [hpending]
  rfl

/-- A pushed frame is an event. -/
theorem readFrame_push (h : encodeFrame obj true = .ok frame) :
    s.readFrame frame = { s with events := s.events ++ [obj] } := by
  rw [readFrame, decodeFrameWithFlags_of_encodeFrame h]
  rfl

/-- An unmarked frame is refused while no request is pending. -/
theorem readFrame_unmarked (hpending : s.pendingOperation = none)
    (h : encodeFrame obj false = .ok frame) : s.readFrame frame = s.setFailure .unmarkedFrame := by
  rw [readFrame, decodeFrameWithFlags_of_encodeFrame h]
  simp only [hpending]
  rfl

theorem readFrame_pendingOperation (s : ClientState) (data : Bytes) :
    (s.readFrame data).pendingOperation = s.pendingOperation := by
  rw [readFrame]
  split
  · split
    · rfl
    · split
      · rfl
      · rfl
  · split
    · rfl
    · rfl

/-- A client that has failed is not connected. -/
theorem readFrame_failed (s : ClientState) (data : Bytes)
    (hs : s.failure ≠ none → s.connected = false) :
    (s.readFrame data).failure ≠ none → (s.readFrame data).connected = false := by
  rw [readFrame]
  split
  · split
    · exact hs
    · split
      · exact fun _ => rfl
      · exact hs
  · split
    · exact fun _ => rfl
    · exact hs

/-- Frames that arrive one behind the other are read one after the other, as long as the client
keeps reading; an incomplete frame behind them is left. -/
theorem readerLoop_flatten {frames : List Bytes} (hframed : ∀ frame ∈ frames, Framed frame)
    {rest : Bytes} (hrest : nextFrame rest = none) {fuel : ℕ} (hfuel : frames.length < fuel)
    (hreading : ∀ i ≤ frames.length, ((frames.take i).foldl readFrame s).connected = true ∧
      ((frames.take i).foldl readFrame s).reading = true) :
    s.readerLoop fuel (frames.flatten ++ rest) = (frames.foldl readFrame s, rest) := by
  induction frames generalizing s fuel with
  | nil =>
    obtain ⟨fuel, rfl⟩ := Nat.exists_eq_succ_of_ne_zero (Nat.ne_of_gt hfuel)
    rw [List.flatten_nil, List.nil_append, readerLoop, hrest]
    split
    · rfl
    · rfl
  | cons frame frames ih =>
    obtain ⟨fuel, rfl⟩ := Nat.exists_eq_succ_of_ne_zero (Nat.ne_of_gt (Nat.zero_lt_of_lt hfuel))
    have hstart : s.connected = true ∧ s.reading = true := hreading 0 (Nat.zero_le _)
    rw [List.flatten_cons, List.append_assoc, readerLoop, if_neg (not_not.mpr hstart),
      (hframed frame List.mem_cons_self).nextFrame_append]
    refine ih (fun f hf => hframed f (List.mem_cons_of_mem _ hf)) (Nat.lt_of_succ_lt_succ hfuel) ?_
    exact fun i hi => hreading (i + 1) (Nat.succ_le_succ hi)

end ClientState

/-! ### What the server writes -/

/-- A frame of the answer, or a frame that the server pushes. -/
inductive Sent
  | response (frame : Bytes)
  | push (frame : Bytes)

namespace Sent

def frame : Sent → Bytes
  | response frame => frame
  | push frame => frame

/-- The frame, when it belongs to the answer. -/
def response? : Sent → Option Bytes
  | response frame => some frame
  | push _ => none

/-- The object that is pushed. -/
def pushed? : Sent → Option ProtocolObject
  | response _ => none
  | push frame => (decodeFrameWithFlags frame).toOption.map Prod.fst

end Sent

/-- The client that waits for the answer to a request, when nothing of it has arrived. -/
structure ClientState.Waits (s : ClientState) (operation : Operation) : Prop where
  connected : s.connected = true
  reading : s.reading = true
  pending : s.pendingOperation = some operation
  responses : s.responses = []

section Mixed

variable {s : ClientState} {operation : Operation} {responses : List ProtocolObject}

/-- The client after it has read some of what was sent. -/
theorem foldl_readFrame (hs : s.pendingOperation = some operation) {mixed : List Sent}
    (hresponses : List.Forall₂ (fun response data => encodeFrame response false = .ok data)
      responses
      (mixed.filterMap Sent.response?))
    (hpush : ∀ frame, Sent.push frame ∈ mixed → ∃ obj, encodeFrame obj true = .ok frame) :
    (mixed.map Sent.frame).foldl ClientState.readFrame s = { s with
      responses := s.responses ++ responses
      events := s.events ++ mixed.filterMap Sent.pushed? } := by
  induction mixed generalizing s responses with
  | nil =>
    cases hresponses
    simp
  | cons sent mixed ih =>
    have hpush' : ∀ frame, Sent.push frame ∈ mixed → ∃ obj, encodeFrame obj true = .ok frame :=
      fun frame hframe => hpush frame (List.mem_cons_of_mem _ hframe)
    cases sent with
    | response frame =>
      obtain ⟨obj, later, hobj, hlater, rfl⟩ := List.forall₂_cons_right_iff.mp hresponses
      rw [List.map_cons, List.foldl_cons, Sent.frame, ClientState.readFrame_response hs hobj]
      refine (ih (by exact hs) hlater hpush').trans ?_
      rw [List.filterMap_cons_none rfl, List.append_assoc]
      rfl
    | push frame =>
      obtain ⟨obj, hobj⟩ := hpush frame List.mem_cons_self
      have hpushed : Sent.pushed? (.push frame) = some obj := by
        rw [Sent.pushed?, decodeFrameWithFlags_of_encodeFrame hobj]
        rfl
      rw [List.map_cons, List.foldl_cons, Sent.frame, ClientState.readFrame_push hobj]
      refine (ih (by exact hs) hresponses hpush').trans ?_
      rw [List.filterMap_cons_some hpushed, List.append_assoc]
      rfl

/-- Frames do not outnumber their bytes. -/
theorem length_le_length_flatten {frames : List Bytes} (hframed : ∀ frame ∈ frames, Framed frame) :
    frames.length ≤ frames.flatten.length := by
  induction frames with
  | nil => exact Nat.le_refl _
  | cons frame frames ih =>
    have hle := ih fun f hf => hframed f (List.mem_cons_of_mem _ hf)
    obtain ⟨_, _, _, payload, -, hframe⟩ := hframed frame List.mem_cons_self
    have hlen : 1 ≤ frame.length := by
      rw [hframe]
      exact Nat.le_add_left _ _
    rw [List.flatten_cons, List.length_append, List.length_cons]
    omega

/-- **The end of a response.** The server answers a request of the client, and writes pushed frames
anywhere in between. Whatever part of this has arrived, the client has collected exactly the objects
of the answer that have arrived, in order, has made an event of each pushed object and of nothing
else, and keeps the bytes of the frame that has only begun. It holds the response to be complete
exactly when the whole answer has arrived. -/
theorem responseEnds_agree {ω : Type} (listeners : List (Listener ω)) (clock : ℤ) (callsign : Str)
    (node node' : Node ω) (request : ProtocolObject) (data : Bytes) (frames : List Bytes)
    (hoperation : clientOperation request = some operation)
    (hdata : encodeFrame request false = .ok data)
    (hframes : (Node.handleFrame listeners clock callsign data).run node = (.ok frames, node'))
    (mixed : List Sent) (hmixed : mixed.filterMap Sent.response? = frames)
    (hpush : ∀ frame, Sent.push frame ∈ mixed → ∃ obj, encodeFrame obj true = .ok frame)
    (hs : s.Waits operation) :
    ∃ responses : List ProtocolObject, frames.map decodeFrame = responses.map .ok ∧
      ∀ i ≤ mixed.length, ∀ part, (part = [] ∨
          ∃ h : i < mixed.length, part <+: mixed[i].frame ∧ part ≠ mixed[i].frame) →
        let arrived := (mixed.take i).filterMap Sent.response?
        s.read (((mixed.take i).map Sent.frame).flatten ++ part) = ({ s with
            responses := responses.take arrived.length
            events := s.events ++ (mixed.take i).filterMap Sent.pushed? }, part) ∧
        (complete (some operation) (responses.take arrived.length) = true ↔ arrived = frames) := by
  obtain ⟨responses, hanswers, hencoded⟩ :=
    Node.handleFrame_answers hframes (decodeFrame_of_encodeFrame hdata)
  have hlen : responses.length = frames.length := hencoded.length_eq
  have hframed : ∀ sent ∈ mixed, Framed sent.frame := by
    intro sent hsent
    cases sent with
    | response frame =>
      have hmem : frame ∈ frames := hmixed ▸ List.mem_filterMap.mpr ⟨_, hsent, rfl⟩
      obtain ⟨obj, -, hobj⟩ := Py.exists_of_mem_forall₂ hencoded hmem
      exact .of_encodeFrame hobj
    | push frame =>
      obtain ⟨obj, hobj⟩ := hpush frame hsent
      exact .of_encodeFrame hobj
  have hbegins : ∀ i, (mixed.take i).filterMap Sent.response? <+: frames := fun i =>
    hmixed ▸ (List.take_prefix i mixed).filterMap Sent.response?
  have hfold : ∀ i, ((mixed.take i).map Sent.frame).foldl ClientState.readFrame s = { s with
      responses := responses.take ((mixed.take i).filterMap Sent.response?).length
      events := s.events ++ (mixed.take i).filterMap Sent.pushed? } := by
    intro i
    have harrived : List.Forall₂ (fun response data => encodeFrame response false = .ok data)
        (responses.take ((mixed.take i).filterMap Sent.response?).length)
        ((mixed.take i).filterMap Sent.response?) := by
      have htake := List.forall₂_take ((mixed.take i).filterMap Sent.response?).length hencoded
      rwa [← List.prefix_iff_eq_take.mp (hbegins i)] at htake
    rw [foldl_readFrame hs.pending harrived fun frame hframe =>
      hpush frame (List.mem_of_mem_take hframe), hs.responses, List.nil_append]
  refine ⟨responses, map_decodeFrame hencoded, fun i hi part hpart => ⟨?_, ?_⟩⟩
  · have hrest : nextFrame part = none := by
      rcases hpart with rfl | ⟨hlt, hbegun, hne⟩
      · rfl
      · exact (hframed _ (List.getElem_mem hlt)).nextFrame_incomplete hbegun hne
    have hall : ∀ frame ∈ (mixed.take i).map Sent.frame, Framed frame := by
      intro frame hframe
      obtain ⟨sent, hsent, rfl⟩ := List.mem_map.mp hframe
      exact hframed sent (List.mem_of_mem_take hsent)
    have hfuel := length_le_length_flatten hall
    rw [ClientState.read, ClientState.readerLoop_flatten hall hrest
      (by rw [List.length_append]; omega) fun j hj => ?_, hfold i]
    rw [← List.map_take, List.take_take, hfold (min j i)]
    exact ⟨hs.connected, hs.reading⟩
  · have hle := (hbegins i).length_le
    rw [hanswers.complete_take_iff hoperation (by omega), hlen]
    exact ⟨fun heq => (hbegins i).eq_of_length heq, fun heq => by rw [heq]⟩

end Mixed

/-- The answer to `GET_CAPABILITIES` behind a pushed message. -/
def capabilitiesAfterPush : List Sent :=
  [.push [1, 64, 1, 31, 0, 0, 0, 7, 0, 0, 0, 2, 101, 83, 241, 0, 6, 69, 65, 49, 65, 66, 67, 5, 75,
    49,
    88, 89, 90, 5, 194, 161, 55, 51, 33], .response [1, 70, 0, 5, 1, 0, 0, 0, 15]]

theorem responseEnds_agree_capabilities :
    let waiting : ClientState := ⟨true, true, some .getCapabilities, [], [], none⟩
    ∃ responses : List ProtocolObject, complete (some .getCapabilities) (responses.take 1) = true ∧
      (waiting.read ((capabilitiesAfterPush.map Sent.frame).flatten ++ [])).1.responses =
        responses.take 1 := by
  intro waiting
  have hpush : ∀ frame, Sent.push frame ∈ capabilitiesAfterPush →
      ∃ obj, encodeFrame obj true = .ok frame := by
    intro frame hframe
    simp only [capabilitiesAfterPush, List.mem_cons, Sent.push.injEq, reduceCtorEq,
      List.not_mem_nil,
      or_false] at hframe
    obtain rfl := hframe
    exact ⟨.message ⟨7, 2, 1700000000, str "EA1ABC", str "K1XYZ", str "¡73!"⟩, by decide +kernel⟩
  obtain ⟨responses, -, hread⟩ := responseEnds_agree [] 0 (str "K1XYZ")
    (⟨.fresh, (), []⟩ : Node Unit)
    ⟨.fresh, (), []⟩ .getCapabilities [1, 5, 0, 0] [[1, 70, 0, 5, 1, 0, 0, 0, 15]] rfl
    (by decide +kernel) rfl capabilitiesAfterPush rfl hpush ⟨rfl, rfl, rfl, rfl⟩ (s := waiting)
  obtain ⟨hcollected, hcomplete⟩ := hread 2 le_rfl [] (.inl rfl)
  exact ⟨responses, hcomplete.mpr rfl, congrArg (fun result => result.1.responses) hcollected⟩

end OpenQSP
