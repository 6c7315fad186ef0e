import OpenQSP.Server.Sessions

/-!
# Conversations

What has arrived on a connection is a line, the frames that were handled, and what has not been read
yet, in whatever pieces it arrived. What was written is the answer to the line, and the answers to
the frames in their order, with pushed messages in between. Only a line that the account store
admits opens a session.

## Main definitions

* `IsAnswer` — responses that answer a frame
* `Connection.Conversation` — the invariant

## Main results

* `nextFrame_eq_some` — a frame that is cut off the stream
* `serverAuthenticate_firstLine` — only the line counts
* `step_conversations` — what a step keeps
* **`connections_converse`** — in every run
-/

namespace OpenQSP

/-! ### The stream -/

/-- A frame is cut off the stream. -/
theorem nextFrame_eq_some {stream frame rest : Bytes} (h : nextFrame stream = some (frame, rest)) :
    Framed frame ∧ stream = frame ++ rest := by
  rw [nextFrame] at h
  split at h
  · cases h
  · next hheader =>
    dsimp only at h
    split at h
    · cases h
    · next hsize =>
      obtain ⟨rfl, rfl⟩ := Prod.mk.inj (Option.some.inj h)
      refine ⟨?_, (List.take_append_drop _ _).symm⟩
      obtain ⟨b₀, b₁, b₂, size, tail, rfl⟩ : ∃ b₀ b₁ b₂ size tail,
          stream = b₀ :: b₁ :: b₂ :: size :: tail := by
        rcases stream with _ | ⟨b₀, _ | ⟨b₁, _ | ⟨b₂, _ | ⟨size, tail⟩⟩⟩⟩
        · simp [headerSize] at hheader
        · simp [headerSize] at hheader
        · simp [headerSize] at hheader
        · simp [headerSize] at hheader
        · exact ⟨b₀, b₁, b₂, size, tail, rfl⟩
      have hlen : (tail.take size.toNat).length = size.toNat := by
        rw [List.length_take]
        simp [headerSize] at hsize
        omega
      refine ⟨b₀, b₁, b₂, tail.take size.toNat, ?_, ?_⟩
      · rw [hlen]
        exact size.toNat_lt
      · rw [hlen, UInt8.ofNat_toNat, headerSize, Nat.add_comm]
        rfl

namespace Tcp

theorem firstLine_append (stream : Bytes) :
    firstLine stream ++ stream.drop (firstLine stream).length = stream := by
  rw [firstLine, List.length_take]
  rcases Nat.le_total ((stream.takeWhile (· ≠ 10)).length + 1) stream.length with hle | hle
  · rw [Nat.min_eq_left hle, List.take_append_drop]
  · rw [Nat.min_eq_right hle, List.drop_length, List.append_nil, List.take_of_length_le hle]

/-- The line stands up to the newline in what is taken off the buffer. -/
theorem takeWhile_firstLine (stream : Bytes) :
    (firstLine stream).takeWhile (· ≠ 10) = stream.takeWhile (· ≠ 10) := by
  simp only [firstLine]
  induction stream with
  | nil => rfl
  | cons byte stream ih =>
    by_cases hbyte : byte = 10
    · rw [List.takeWhile_cons_of_neg (by simpa using hbyte), List.length_nil, zero_add,
        List.take_succ_cons, List.takeWhile_cons_of_neg (by simpa using hbyte)]
    · rw [List.takeWhile_cons_of_pos (by simpa using hbyte), List.length_cons,
        List.take_succ_cons, List.takeWhile_cons_of_pos (by simpa using hbyte), ih]

/-- `readline` sees no more than what it takes off the buffer. -/
theorem readLine_firstLine (limit : ℕ) (stream : Bytes) :
    readLine limit (firstLine stream) = readLine limit stream := by
  rw [readLine, readLine, takeWhile_firstLine]
  rw [firstLine, List.take_take, Nat.min_self]

/-- Only the line counts. -/
theorem serverAuthenticate_firstLine {accountStore : Option (Str → Str → Py Str)} {allow : Bool}
    (stream : Bytes) : serverAuthenticate accountStore allow (firstLine stream) =
      serverAuthenticate accountStore allow stream := by
  rw [serverAuthenticate, serverAuthenticate, readLine_firstLine]

/-! ### The invariant -/

/-- The responses are those to this frame: an answer, if it is a request. -/
def IsAnswer (frame : Bytes) (responses : List Bytes) : Prop :=
  ∃ objects, List.Forall₂ (fun object data => encodeFrame object false = .ok data) objects
      responses ∧
    ∀ request, decodeFrame frame = .ok request → Answers request objects

variable {ω : Type} {setup : TCPSetup ω}

/-- The line logs its sender in, by a word of the account store. -/
def Admits (setup : TCPSetup ω) (A : (Str → Str → Py Str) → Prop) (line : Bytes) (callsign : Str) :
    Prop :=
  ∃ authenticate, A authenticate ∧
    serverAuthenticate (if setup.accountStore then some authenticate else none)
      setup.allowDevelopmentAuth line = .ok (some callsign)

/-- What was read and what was written on a connection. -/
structure Connection.Conversation (setup : TCPSetup ω) (A : (Str → Str → Py Str) → Prop)
    (c : Connection) : Prop where
  received : c.arrived = c.line ++ (c.requests.map Prod.fst).flatten ++ c.unread
  framed : ∀ request ∈ c.requests, Framed request.1
  /-- Every frame is answered, but for one that raised; that one was the last. -/
  answered : ∀ request ∈ c.requests, IsAnswer request.1 request.2 ∨
    request.2 = [] ∧ c.phase = .ended ∧ c.requests.getLast? = some request
  responses : c.written.filterMap Sent.response? = (c.requests.map Prod.snd).flatten
  pushes : ∀ frame, .push frame ∈ c.written →
    ∃ message, encodeFrame (.message message) true = .ok frame
  begun : c.phase = .authenticating → c.line = []
  admitted : ∀ callsign,
    (c.phase = .greeted (some callsign) ∨ ∃ joined, c.login = some ⟨callsign, joined⟩) →
      c.greeting = handshakeOk ∧ Admits setup A c.line callsign
  silent : c.login = none → c.requests = [] ∧ c.written = []

section Conversation

variable {c : Connection} {A : (Str → Str → Py Str) → Prop}

theorem Connection.Conversation.new : Connection.new.Conversation setup A where
  received := rfl
  framed _ h := absurd h List.not_mem_nil
  answered _ h := absurd h List.not_mem_nil
  responses := rfl
  pushes _ h := absurd h List.not_mem_nil
  begun _ := rfl
  admitted callsign h := by
    rcases h with h | ⟨_, h⟩
    · cases h
    · cases h
  silent _ := ⟨rfl, rfl⟩

/-- More calls of the account store. -/
theorem Connection.Conversation.mono (h : c.Conversation setup A)
    {A' : (Str → Str → Py Str) → Prop} (hA : ∀ authenticate, A authenticate → A' authenticate) :
    c.Conversation setup A' := by
  refine { h with admitted := fun callsign hcallsign => ?_ }
  obtain ⟨hgreeting, authenticate, hauthenticate, hline⟩ := h.admitted callsign hcallsign
  exact ⟨hgreeting, authenticate, hA authenticate hauthenticate, hline⟩

theorem Connection.Conversation.feed (h : c.Conversation setup A) (bytes : Bytes) :
    (c.feed bytes).Conversation setup A := by
  rw [Connection.feed]
  split
  · exact h
  · refine { h with received := ?_ }
    rw [h.received, List.append_assoc]

/-- The task ends. -/
theorem Connection.Conversation.ended (h : c.Conversation setup A) :
    { c with phase := .ended, closing := true : Connection }.Conversation setup A := by
  refine { h with answered := fun request hrequest => ?_, begun := ?_, admitted := ?_ }
  · rcases h.answered request hrequest with hanswer | ⟨hnil, -, hlast⟩
    · exact .inl hanswer
    · exact .inr ⟨hnil, rfl, hlast⟩
  · intro hphase
    cases hphase
  · rintro callsign (hphase | hlogin)
    · cases hphase
    · exact h.admitted callsign (.inr hlogin)

/-- A message is pushed. -/
theorem Connection.Conversation.told (h : c.Conversation setup A) (hlogin : c.login ≠ none)
    {message : Message} {frame : Bytes}
    (hframe : encodeFrame (.message message) true = .ok frame) :
    { c with written := c.written ++ [.push frame] : Connection }.Conversation setup A := by
  refine { h with responses := ?_, pushes := fun frame' hframe' => ?_, silent := ?_ }
  · rw [List.filterMap_append, h.responses]
    exact List.append_nil _
  · rcases List.mem_append.mp hframe' with hold | hnew
    · exact h.pushes frame' hold
    · obtain rfl := Sent.push.inj (List.mem_singleton.mp hnew)
      exact ⟨message, hframe⟩
  · intro hnone
    exact absurd hnone hlogin

theorem Connection.Conversation.pushed (h : c.Conversation setup A) (hlogin : c.login ≠ none)
    {pushed : List Sent} (hpushed : pushed = [] ∨ ∃ message frame,
      encodeFrame (.message message) true = .ok frame ∧ pushed = [.push frame]) :
    { c with written := c.written ++ pushed : Connection }.Conversation setup A := by
  rcases hpushed with rfl | ⟨message, frame, hframe, rfl⟩
  · rw [List.append_nil]
    exact h
  · exact h.told hlogin hframe

/-- The line is read. -/
theorem Connection.Conversation.greeted (h : c.Conversation setup A)
    (hphase : c.phase = .authenticating) (hlogin : c.login = none)
    {authenticate : Str → Str → Py Str} (hauthenticate : A authenticate) {callsign : Option Str}
    (hline : serverAuthenticate (if setup.accountStore then some authenticate else none)
      setup.allowDevelopmentAuth c.unread = .ok callsign) :
    { c with
      phase := .greeted callsign
      unread := c.unread.drop (firstLine c.unread).length
      greeting := handshakeResponse callsign
      line := firstLine c.unread : Connection }.Conversation setup A := by
  obtain ⟨hrequests, -⟩ := h.silent hlogin
  refine { h with received := ?_, answered := ?_, begun := ?_, admitted := ?_ }
  · have hreceived := h.received
    rw [h.begun hphase, hrequests] at hreceived
    show c.arrived = firstLine c.unread ++ (c.requests.map Prod.fst).flatten ++ _
    rw [hrequests, hreceived]
    simp only [List.map_nil, List.flatten_nil, List.append_nil, List.nil_append]
    exact (firstLine_append _).symm
  · show ∀ request ∈ c.requests, _
    rw [hrequests]
    exact fun _ hrequest => absurd hrequest List.not_mem_nil
  · intro hgreeted
    cases hgreeted
  · rintro name (hname | ⟨joined, hjoined⟩)
    · obtain rfl := Phase.greeted.inj hname
      exact ⟨rfl, authenticate, hauthenticate, (serverAuthenticate_firstLine _).trans hline⟩
    · cases hlogin.symm.trans hjoined

/-- A session is created. -/
theorem Connection.Conversation.opened (h : c.Conversation setup A) {callsign : Str}
    (hphase : c.phase = .greeted (some callsign)) (hlogin : c.login = none) (joined : ℕ) :
    { c with
      phase := .reading callsign
      login := some ⟨callsign, joined⟩ : Connection }.Conversation setup A := by
  obtain ⟨hrequests, -⟩ := h.silent hlogin
  refine { h with answered := ?_, begun := ?_, admitted := ?_, silent := ?_ }
  · show ∀ request ∈ c.requests, _
    rw [hrequests]
    exact fun _ hrequest => absurd hrequest List.not_mem_nil
  · intro hreading
    cases hreading
  · rintro name (hname | ⟨joined', hjoined⟩)
    · cases hname
    · obtain ⟨rfl, -⟩ := Login.mk.inj (Option.some.inj hjoined)
      exact h.admitted callsign (.inl hphase)
  · intro hnone
    cases hnone

/-- The task waits for something else. -/
theorem Connection.Conversation.waits (h : c.Conversation setup A) {phase : Phase}
    (hbegun : phase ≠ .authenticating) (hgreeted : ∀ callsign, phase ≠ .greeted callsign)
    (hended : c.phase ≠ .ended) :
    { c with phase : Connection }.Conversation setup A := by
  refine { h with answered := fun request hrequest => ?_, begun := ?_, admitted := ?_ }
  · rcases h.answered request hrequest with hanswer | ⟨-, hphase, -⟩
    · exact .inl hanswer
    · exact absurd hphase hended
  · exact fun hphase => absurd hphase hbegun
  · rintro callsign (hphase | hlogin)
    · exact absurd hphase (hgreeted _)
    · exact h.admitted callsign (.inr hlogin)

/-- A frame is handled: it is answered, or it raises. -/
theorem Connection.Conversation.requested (h : c.Conversation setup A) (hlogin : c.login ≠ none)
    (hphase : c.phase ≠ .ended) {frame rest : Bytes}
    (hframe : nextFrame c.unread = some (frame, rest)) (phase : Phase) (closing : Bool)
    (hbegun : phase ≠ .authenticating) (hgreeted : ∀ callsign, phase ≠ .greeted callsign)
    {responses : List Bytes}
    (hanswer : IsAnswer frame responses ∨ responses = [] ∧ phase = .ended) :
    { c with
      phase
      unread := rest
      closing
      written := c.written ++ responses.map .response
      requests := c.requests ++ [(frame, responses)] : Connection }.Conversation setup A := by
  obtain ⟨hframed, hunread⟩ := nextFrame_eq_some hframe
  refine { h with
    received := ?_
    framed := fun request hrequest => ?_
    answered := fun request hrequest => ?_
    responses := ?_
    pushes := fun frame' hframe' => ?_
    begun := fun hphase => absurd hphase hbegun
    admitted := fun callsign hcallsign => ?_
    silent := fun hnone => absurd hnone hlogin }
  · rw [h.received, hunread]
    simp
  · rcases List.mem_append.mp hrequest with hold | hnew
    · exact h.framed request hold
    · rw [List.mem_singleton.mp hnew]
      exact hframed
  · rcases List.mem_append.mp hrequest with hold | hnew
    · rcases h.answered request hold with hanswer | ⟨-, hended, -⟩
      · exact .inl hanswer
      · exact absurd hended hphase
    · rw [List.mem_singleton.mp hnew]
      exact hanswer.imp_right fun hraised => ⟨hraised.1, hraised.2, List.getLast?_concat⟩
  · have hresponses : (responses.map Sent.response).filterMap Sent.response? = responses := by
      rw [List.filterMap_map]
      exact List.filterMap_some
    rw [List.filterMap_append, h.responses, hresponses, List.map_append, List.flatten_append]
    simp
  · rcases List.mem_append.mp hframe' with hold | hnew
    · exact h.pushes frame' hold
    · obtain ⟨_, -, heq⟩ := List.mem_map.mp hnew
      cases heq
  · rcases hcallsign with hname | hjoined
    · exact absurd hname (hgreeted _)
    · exact h.admitted callsign (.inr hjoined)

end Conversation

/-! ### The server -/

/-- What the core returns for a frame answers it. -/
theorem isAnswer_of_handleFrame {listeners : List (Listener ω)} {clock : ℤ} {callsign : Str}
    {node : Node ω} {frame : Bytes} {responses : List Bytes}
    (h : ((Node.handleFrame listeners clock callsign frame).run node).1 = .ok responses) :
    IsAnswer frame responses := by
  rcases hframe : decodeFrame frame with e | request
  · obtain ⟨objects, hobjects⟩ := handleFrame_responses h
    refine ⟨objects, hobjects, fun request hrequest => ?_⟩
    cases hframe.symm.trans hrequest
  · obtain ⟨objects, hanswers, hobjects⟩ := Node.handleFrame_answers (Prod.ext h rfl) hframe
    refine ⟨objects, hobjects, fun request' hrequest => ?_⟩
    obtain rfl := Except.ok.inj (hframe.symm.trans hrequest)
    exact hanswers

section Node

variable {node node' : TCPNode ω} {A : ℕ → (Str → Str → Py Str) → Prop}

theorem connection_update (node : TCPNode ω) (k : ℕ) (f : Connection → Connection) (j : ℕ) :
    (node.onServer (.update k f)).connection j =
      if j = k then f (node.connection k) else node.connection j := by
  show Function.update node.server.connections k (f (node.connection k)) j = _
  rw [Function.update_apply]
  rfl

theorem connection_finish (node : TCPNode ω) (k j : ℕ) : (finish k node).connection j =
    if j = k then { node.connection k with phase := .ended, closing := true }
    else node.connection j :=
  connection_update node k (fun c => { c with phase := .ended, closing := true }) j

/-- What is pushed to a connection, that has a login then. -/
theorem Announces.pushed (h : Announces node node') (hserved : Served node) (k : ℕ) : ∃ pushed,
    node'.connection k =
      { node.connection k with written := (node.connection k).written ++ pushed } ∧
    (pushed = [] ∨ (node.connection k).login ≠ none ∧ ∃ message frame,
      encodeFrame (.message message) true = .ok frame ∧ pushed = [.push frame]) := by
  obtain ⟨pushed, hconnection, hpushed⟩ := h.connection k
  refine ⟨pushed, hconnection, hpushed.imp_right ?_⟩
  rintro ⟨message, frame, hframe, rfl, hactive⟩
  obtain ⟨joined, hlogin⟩ :=
    (hserved.tracks k).served _ (hserved.registered.mem_activeFor.mp hactive)
  refine ⟨?_, message, frame, hframe, rfl⟩
  rw [hlogin]
  exact Option.some_ne_none _

/-- Each connection has its conversation. -/
def Conversations (setup : TCPSetup ω) (A : ℕ → (Str → Str → Py Str) → Prop) (node : TCPNode ω) :
    Prop :=
  ∀ k, (node.connection k).Conversation setup (A k)

theorem Conversations.mono (h : Conversations setup A node)
    {A' : ℕ → (Str → Str → Py Str) → Prop}
    (hA : ∀ k authenticate, A k authenticate → A' k authenticate) :
    Conversations setup A' node :=
  fun k => (h k).mono (hA k)

/-- One connection goes on. -/
theorem Conversations.update (h : Conversations setup A node) {k : ℕ}
    {f : Connection → Connection} (hk : (f (node.connection k)).Conversation setup (A k)) :
    Conversations setup A (node.onServer (.update k f)) := by
  intro j
  rw [connection_update]
  by_cases hj : j = k
  · rw [if_pos hj, hj]
    exact hk
  · rw [if_neg hj]
    exact h j

theorem Conversations.finish (h : Conversations setup A node) (k : ℕ) :
    Conversations setup A (finish k node) :=
  h.update (f := fun c => { c with phase := .ended, closing := true }) (h k).ended

/-- Connections are told of a message. -/
theorem Conversations.announces (h : Conversations setup A node) (hserved : Served node)
    (hannounces : Announces node node') : Conversations setup A node' := by
  intro k
  obtain ⟨pushed, hconnection, hpushed⟩ := hannounces.pushed hserved k
  rw [hconnection]
  rcases hpushed with rfl | ⟨hlogin, hpush⟩
  · rw [List.append_nil]
    exact h k
  · exact (h k).pushed hlogin (.inr hpush)

theorem Conversations.serveLine (h : Conversations setup A node) (hserved : Served node) {k : ℕ}
    (hphase : (node.connection k).phase = .authenticating) {authenticate : Str → Str → Py Str}
    (hauthenticate : A k authenticate) :
    Conversations setup A (serveLine setup k authenticate node) := by
  have hlogin := (hserved.tracks k).early (.inl hphase)
  rw [Tcp.serveLine]
  split
  · exact h.finish k
  · next callsign hline => exact h.update ((h k).greeted hphase hlogin hauthenticate hline)

theorem Conversations.openSession (h : Conversations setup A node) (hserved : Served node)
    {k : ℕ} {callsign : Str} (hphase : (node.connection k).phase = .greeted (some callsign)) :
    Conversations setup A (openSession k callsign node) := by
  have hlogin := (hserved.tracks k).early (.inr ⟨_, hphase⟩)
  rw [Tcp.openSession]
  split
  · exact h.finish k
  · exact h.update (f := fun c => { c with phase := .reading callsign, login := some _ })
      ((h k).opened hphase hlogin _)

theorem Conversations.serveFrame (h : Conversations setup A node) (hserved : Served node)
    {k : ℕ} {callsign : Str} (hphase : (node.connection k).phase = .reading callsign)
    {frame rest : Bytes} (hframe : nextFrame (node.connection k).unread = some (frame, rest))
    (clock : ℤ) :
    Conversations setup A (serveFrame setup k callsign frame rest clock node) := by
  obtain ⟨joined, hlogin⟩ := (hserved.tracks k).served callsign (by rw [hphase]; rfl)
  have hsome : (node.connection k).login ≠ none := by
    rw [hlogin]
    exact Option.some_ne_none _
  have hended : (node.connection k).phase ≠ .ended := by
    rw [hphase]
    intro hended
    cases hended
  rw [Tcp.serveFrame]
  split
  · exact h.finish k
  have hread : Served (node.onServer (.update k fun c => { c with unread := rest })) :=
    hserved.quiet rfl rfl rfl rfl (fun hearly => hearly) (fun hclosing => hclosing)
  have hannounces := handleFrame_announces setup hread.consistent clock callsign frame
  generalize houtcome : (Node.handleFrame setup.listeners clock callsign frame).run
    (node.onServer (.update k fun c => { c with unread := rest })) = outcome at hannounces ⊢
  -- The other connections are only told of a message.
  have hothers : ∀ j, j ≠ k → (outcome.2.connection j).Conversation setup (A j) := by
    intro j hj
    obtain ⟨pushed, hconnection, hpushed⟩ := hannounces.pushed hread j
    rw [connection_update, if_neg hj] at hconnection hpushed
    rw [hconnection]
    rcases hpushed with rfl | ⟨hlogin, hpush⟩
    · rw [List.append_nil]
      exact h j
    · exact (h j).pushed hlogin (.inr hpush)
  obtain ⟨pushed, hconnection, hpushed⟩ := hannounces.pushed hread k
  rw [connection_update, if_pos rfl] at hconnection
  have hpushed := (h k).pushed hsome (hpushed.imp_right And.right)
  dsimp only
  split
  · next responses hresponses =>
    have hanswer : IsAnswer frame responses := by
      rw [← houtcome] at hresponses
      exact isAnswer_of_handleFrame hresponses
    intro j
    rw [connection_update]
    by_cases hj : j = k
    · rw [if_pos hj, hj, hconnection]
      exact hpushed.requested hsome hended hframe (.draining callsign) _
        (by intro h; cases h) (by intro _ h; cases h) (.inl hanswer)
    · rw [if_neg hj]
      exact hothers j hj
  · intro j
    rw [connection_finish, connection_update, connection_update]
    by_cases hj : j = k
    · rw [if_pos hj, if_pos rfl, hj, hconnection]
      have hraised := hpushed.requested hsome hended hframe .ended true
        (by intro h; cases h) (by intro _ h; cases h) (.inr ⟨rfl, rfl⟩)
      simpa using hraised
    · rw [if_neg hj, if_neg hj]
      exact hothers j hj

theorem Conversations.resume (h : Conversations setup A node) (hserved : Served node) {k : ℕ}
    {authenticate : Str → Str → Py Str} (hauthenticate : A k authenticate) (clock : ℤ) :
    Conversations setup A (resume setup k authenticate clock node) := by
  rw [Tcp.resume]
  split
  · next hphase =>
    split
    · exact h.serveLine hserved hphase hauthenticate
    · exact h
  · exact h.finish k
  · next callsign hphase => exact h.openSession hserved hphase
  · next callsign hphase =>
    split
    · next frame rest hframe => exact h.serveFrame hserved hphase hframe clock
    · split
      · exact h.finish k
      · exact h
  · next callsign hphase =>
    refine h.update ((h k).waits ?_ ?_ ?_)
    · intro h
      cases h
    · intro _ h
      cases h
    · rw [hphase]
      intro h
      cases h
  · exact h

/-- What one step keeps. -/
theorem step_conversations (h : Conversations setup A node) (hserved : Served node) {input : Input}
    (hinput : ∀ k authenticate clock, input = .resume k authenticate clock → A k authenticate) :
    Conversations setup A (step setup node input) := by
  cases input with
  | data k bytes => exact h.update ((h k).feed bytes)
  | eof k =>
    have hk := h k
    exact h.update (f := fun c => { c with eof := true }) { hk with }
  | closing k =>
    have hk := h k
    exact h.update (f := fun c => { c with closing := true }) { hk with }
  | resume k authenticate clock => exact h.resume hserved (hinput k authenticate clock rfl) clock
  | fail k =>
    rw [step]
    split
    · exact h
    · exact h.finish k
  | send call => exact h.announces hserved (sendMessage_announces hserved.consistent call)
  | database change keeps => exact h

end Node

/-- **Connections converse.** In every run, with the bytes of each connection in any pieces and the
steps of all connections in any order: what has arrived is the line, the frames that were handled
and what is unread. What was written is, pushed messages aside, the answers to these frames in their
order, and every frame has its answer, but for one that ended the task. A session has begun with a
line that the account store admitted. -/
theorem connections_converse (setup : TCPSetup ω) (calls : List DatabaseCall) (outside : ω)
    (inputs : List Input) (k : ℕ) :
    ((serverAfter setup calls outside inputs).connection k).Conversation setup fun authenticate =>
      ∃ clock, .resume k authenticate clock ∈ inputs := by
  suffices Conversations setup
      (fun k authenticate => ∃ clock, .resume k authenticate clock ∈ inputs)
      (serverAfter setup calls outside inputs) from this k
  induction inputs using List.reverseRecOn with
  | nil => exact fun _ => .new
  | append_singleton inputs input ih =>
    rw [serverAfter, List.foldl_append]
    refine step_conversations (ih.mono ?_) (serverAfter_served setup calls outside inputs) ?_
    · rintro k authenticate ⟨clock, hmem⟩
      exact ⟨clock, List.mem_append_left _ hmem⟩
    · rintro k authenticate clock rfl
      exact ⟨clock, List.mem_append_right _ (List.mem_singleton_self _)⟩

end Tcp

end OpenQSP
