import OpenQSP.Protocol.Failures
import OpenQSP.Server.Responses

/-!
# Request and answer

The answer to a request has a shape that only the request decides: one `ERROR`, or the one object
that was asked for, or a page of objects and an `END` that names the request. A client relies on the
shape alone to know where an answer ends, because the frames carry no request number.

On a node the listeners run inside the call, between the commit of a new message and the return of
`STORED`.

## Main definitions

* `Answers` — the shape of an answer
* `Node.dispatch`, `Node.handleFrame` — the production core, with both stores

## Main results

* `dispatch_answers` — every answer has the shape of its request
* `handleFrame_answers` — the same for frames
* `dispatch_error` — an answer that is an error has no effect
-/

namespace OpenQSP

open Method

/-- The shape of an answer. -/
inductive Answers : ProtocolObject → List ProtocolObject → Prop
  | error (request : ProtocolObject) (error : Error) : Answers request [.error error]
  | stored (request : SendMessage) : Answers (.sendMessage request) [.stored]
  | capabilities (value : Capabilities) : Answers .getCapabilities [.capabilities value]
  | bulletin (request : GetBulletin) (value : Bulletin) :
      Answers (.getBulletin request) [.bulletin value]
  | message (request : GetMessage) (value : Message) :
      Answers (.getMessage request) [.message value]
  | messages (request : GetNewMessages) (messages : List Message) (count nextSince : ℤ)
      (hasMore : Bool) :
      Answers (.getNewMessages request)
        (messages.map .message ++ [.end ⟨.getNewMessages, count, nextSince, hasMore⟩])
  | bulletins (request : GetNewBulletins) (headers : List BulletinHeader) (count nextSince : ℤ)
      (hasMore : Bool) : Answers (.getNewBulletins request)
        (headers.map .bulletinHeader ++ [.end ⟨.getNewBulletins, count, nextSince, hasMore⟩])

/-- An answer is never empty. -/
theorem Answers.ne_nil {request : ProtocolObject} {responses : List ProtocolObject}
    (h : Answers request responses) : responses ≠ [] := by
  cases h with
  | messages => exact List.append_ne_nil_of_right_ne_nil _ (List.cons_ne_nil _ _)
  | bulletins => exact List.append_ne_nil_of_right_ne_nil _ (List.cons_ne_nil _ _)
  | _ => exact List.cons_ne_nil _ _

/-! ### Handlers that only read -/

/-- The handler leaves the tables as they are, and what it returns satisfies `P`. -/
def Reads (P : List ProtocolObject → Prop) (m :
    Method PyError Tables (List ProtocolObject)) : Prop :=
  ∀ t, (m.run t).2 = t ∧ ∀ responses, (m.run t).1 = .ok responses → P responses

namespace Reads

variable {P : List ProtocolObject → Prop} {m m' : Method PyError Tables (List ProtocolObject)}

theorem pure {responses : List ProtocolObject} (h : P responses) :
    Reads P (Pure.pure responses) := by
  refine fun t => ⟨rfl, fun responses' hrun => ?_⟩
  obtain rfl := Except.ok.inj hrun
  exact h

theorem raise (e : PyError) : Reads P (Method.raise e) := fun _ => ⟨rfl, nofun⟩

theorem ite {c : Prop} [Decidable c] (h : Reads P m) (h' : Reads P m') :
    Reads P (if c then m else m') := by
  split
  · exact h
  · exact h'

theorem get_bind {f : Tables → Method PyError Tables (List ProtocolObject)} (h : ∀ t,
    Reads P (f t)) :
    Reads P (get >>= f) := fun t => h t t

theorem ofExcept {x : Py (List ProtocolObject)} (h : ∀ responses, x = .ok responses → P responses) :
    Reads P (Method.ofExcept x) := by
  intro t
  rw [run_ofExcept]
  exact ⟨rfl, h⟩

theorem ofExcept_bind {α : Type} {x : Py α} {f : α → Method PyError Tables (List ProtocolObject)}
    (h : ∀ a, Reads P (f a)) : Reads P (Method.ofExcept x >>= f) := by
  cases x with
  | error e => exact fun _ => ⟨rfl, nofun⟩
  | ok a => exact h a

theorem withCallsign {callsign : Str} {unauthorized : List ProtocolObject}
    {handler : Str → Method PyError Tables (List ProtocolObject)} (hu : P unauthorized)
    (h : ∀ callsign, Reads P (handler callsign)) :
    Reads P (OpenQSP.withCallsign callsign unauthorized handler) := by
  rw [OpenQSP.withCallsign]
  split
  · exact h _
  · exact ite (pure hu) (raise _)

end Reads

section Handlers

variable {stores : Stores} {callsign : Str}

theorem handleGetNewMessages_reads (request : GetNewMessages) :
    Reads (Answers (.getNewMessages request)) (handleGetNewMessages stores callsign request) := by
  refine Reads.ite (Reads.pure (.error _ _)) (Reads.withCallsign (.error _ _) fun _ =>
    Reads.get_bind fun t => ?_)
  split
  · refine Reads.ofExcept fun responses h => ?_
    obtain ⟨code, detail, rfl⟩ := pageError_eq_ok h
    exact .error _ _
  · exact Reads.ofExcept_bind fun messages => Reads.pure (.messages _ _ _ _ _)

theorem handleGetNewBulletins_reads (request : GetNewBulletins) :
    Reads (Answers (.getNewBulletins request)) (handleGetNewBulletins stores callsign request) := by
  refine Reads.ite (Reads.pure (.error _ _)) (Reads.withCallsign (.error _ _) fun _ =>
    Reads.get_bind fun t => ?_)
  split
  · refine Reads.ofExcept fun responses h => ?_
    obtain ⟨code, detail, rfl⟩ := pageError_eq_ok h
    exact .error _ _
  · next page _ =>
    have hmap : (page.headers.map fun header : StoredBulletinHeader => ProtocolObject.bulletinHeader
        ⟨header.sequence, header.createdAt, header.author, header.title⟩) =
        (page.headers.map fun header => (⟨header.sequence, header.createdAt, header.author,
          header.title⟩ : BulletinHeader)).map .bulletinHeader := by
      rw [List.map_map]
      rfl
    rw [hmap]
    exact Reads.pure (.bulletins _ _ _ _ _)

theorem handleGetBulletin_reads (request : GetBulletin) :
    Reads (Answers (.getBulletin request)) (handleGetBulletin stores callsign request) := by
  refine Reads.ite (Reads.pure (.error _ _)) (Reads.withCallsign (.error _ _) fun _ =>
    Reads.get_bind fun t => ?_)
  split
  · exact Reads.ite (Reads.pure (.error _ _)) (Reads.raise _)
  · exact Reads.pure (.error _ _)
  · exact Reads.pure (.bulletin _ _)

theorem handleGetMessage_reads (request : GetMessage) :
    Reads (Answers (.getMessage request)) (handleGetMessage stores callsign request) := by
  refine Reads.ite (Reads.pure (.error _ _)) (Reads.withCallsign (.error _ _) fun _ => ?_)
  split
  · exact Reads.ite (Reads.pure (.error _ _)) (Reads.raise _)
  · refine Reads.get_bind fun t => ?_
    split
    · exact Reads.ite (Reads.pure (.error _ _)) (Reads.raise _)
    · exact Reads.pure (.error _ _)
    · exact Reads.pure (.message _ _)

end Handlers

/-! ### The dispatcher -/

section Dispatch

variable {stores : Stores} {clock : ℤ} {callsign : Str} {t t' : Tables}

/-- What `SEND_MESSAGE` is answered with, and which events it has. -/
theorem handleSendMessage_cases {request : SendMessage} {responses : List ProtocolObject}
    {events : List Message}
    (h : (handleSendMessage stores clock callsign request).run t = (.ok (responses, events), t')) :
    (responses = [.stored] ∧ ∃ author acceptance event,
      (acceptMessage author request.recipient request.body request.createdAt none [] clock).run t =
        (.ok (acceptance, event), t') ∧ events = event.toList) ∨
    (∃ error, responses = [.error error]) ∧ events = [] ∧
      (t' = t ∨ ∃ author e,
        (acceptMessage author request.recipient request.body request.createdAt none []
          clock).run t =
          (.error e, t')) := by
  rw [handleSendMessage] at h
  split at h
  · obtain ⟨hresult, rfl⟩ := Prod.mk.inj h
    obtain ⟨rfl, rfl⟩ := Prod.mk.inj (Except.ok.inj hresult)
    exact .inr ⟨⟨_, rfl⟩, rfl, .inl rfl⟩
  rw [withCallsign] at h
  split at h
  · next author _ =>
    rcases hrun : (acceptMessage author request.recipient request.body request.createdAt none []
      clock).run t with ⟨e | ⟨acceptance, event⟩, t₁⟩
    · rw [run_catchError_of_error (run_bind_of_error hrun _)] at h
      split at h
      · obtain ⟨hresult, rfl⟩ := Prod.mk.inj h
        obtain ⟨rfl, rfl⟩ := Prod.mk.inj (Except.ok.inj hresult)
        exact .inr ⟨⟨_, rfl⟩, rfl, .inr ⟨author, e, hrun⟩⟩
      · split at h
        · obtain ⟨hresult, rfl⟩ := Prod.mk.inj h
          obtain ⟨rfl, rfl⟩ := Prod.mk.inj (Except.ok.inj hresult)
          exact .inr ⟨⟨_, rfl⟩, rfl, .inr ⟨author, e, hrun⟩⟩
        · cases h
    · rw [run_catchError_of_ok (run_bind_of_ok hrun _)] at h
      obtain ⟨hresult, rfl⟩ := Prod.mk.inj h
      obtain ⟨rfl, rfl⟩ := Prod.mk.inj (Except.ok.inj hresult)
      exact .inl ⟨rfl, author, acceptance, event, hrun, rfl⟩
  · split at h
    · obtain ⟨hresult, rfl⟩ := Prod.mk.inj h
      obtain ⟨rfl, rfl⟩ := Prod.mk.inj (Except.ok.inj hresult)
      exact .inr ⟨⟨_, rfl⟩, rfl, .inl rfl⟩
    · cases h

/-- Every answer has the shape of its request, and only a `SEND_MESSAGE` changes the tables or has
events. -/
theorem dispatch_cases {request : ProtocolObject} {responses : List ProtocolObject}
    {events : List Message}
    (h : (dispatch stores clock callsign request).run t = (.ok (responses, events), t')) :
    Answers request responses ∧
      ((∃ value, request = .sendMessage value ∧
        (handleSendMessage stores clock callsign value).run t = (.ok (responses, events), t')) ∨
      t' = t ∧ events = []) := by
  have hquiet : ∀ {m : Method PyError Tables (List ProtocolObject)}, Reads (Answers request) m →
      (m >>= fun responses => pure (responses, ([] : List Message))).run t =
        (.ok (responses, events), t') → Answers request responses ∧ t' = t ∧ events = [] := by
    intro m hm hrun
    obtain ⟨hsame, hanswers⟩ := hm t
    rw [run_bind_pure] at hrun
    rcases hres : (m.run t).1 with e | responses'
    · rw [hres] at hrun
      cases hrun
    · rw [hres] at hrun
      obtain ⟨hresult, rfl⟩ := Prod.mk.inj hrun
      obtain ⟨rfl, rfl⟩ := Prod.mk.inj (Except.ok.inj hresult)
      exact ⟨hanswers _ hres, hsame, rfl⟩
  cases request with
  | getMessage request => exact (hquiet (handleGetMessage_reads request) h).imp_right .inr
  | getNewMessages request => exact (hquiet (handleGetNewMessages_reads request) h).imp_right .inr
  | getNewBulletins request => exact (hquiet (handleGetNewBulletins_reads request) h).imp_right .inr
  | getBulletin request => exact (hquiet (handleGetBulletin_reads request) h).imp_right .inr
  | sendMessage value =>
    refine ⟨?_, .inl ⟨value, rfl, h⟩⟩
    rcases handleSendMessage_cases h with ⟨rfl, -⟩ | ⟨⟨error, rfl⟩, -⟩
    · exact .stored _
    · exact .error _ _
  | _ =>
    obtain ⟨hresult, rfl⟩ := Prod.mk.inj h
    obtain ⟨rfl, rfl⟩ := Prod.mk.inj (Except.ok.inj hresult)
    exact ⟨by constructor, .inr ⟨rfl, rfl⟩⟩

/-- An answer that is an error has no effect. -/
theorem dispatch_error (hconsistent : t.Consistent) {request : ProtocolObject} {error : Error}
    {events : List Message}
    (h : (dispatch stores clock callsign request).run t = (.ok ([.error error], events), t')) :
    t' = t ∧ events = [] := by
  rcases (dispatch_cases h).2 with ⟨value, -, hsend⟩ | hquiet
  · rcases handleSendMessage_cases hsend with ⟨hstored, -⟩ | ⟨-, rfl, hsame | ⟨author, e, hrun⟩⟩
    · cases hstored
    · exact ⟨hsame, rfl⟩
    · have hspec := (SendCall.accept_spec hconsistent
        ⟨author, value.recipient, value.body, value.createdAt, none, [], clock⟩).1
      simp only [SendCall.accept, hrun] at hspec
      exact ⟨hspec e rfl, rfl⟩
  · exact hquiet

end Dispatch

/-! ### The node -/

section Node

variable {ω : Type} (listeners : List (Listener ω)) (clock : ℤ)

/-- `_dispatch` on a node: a new message is announced before the answer is returned. -/
def Node.dispatch (callsign : Str) (request : ProtocolObject) :
    Method PyError (Node ω) (List ProtocolObject) := do
  let (responses, events) ← Node.onTables (OpenQSP.dispatch ⟨true, true⟩ clock callsign request)
  modify fun node => events.foldl (fun node event => Node.publish 0 listeners event node) node
  return responses

/-- `ServerCore.handle_frame` of the core with both stores. -/
def Node.handleFrame (callsign : Str) (frame : Bytes) : Method PyError (Node ω) (List Bytes) :=
  OpenQSP.handleFrame (Node.dispatch listeners clock) callsign frame

variable {listeners clock} {callsign : Str} {node node' : Node ω}

theorem Node.run_dispatch (request : ProtocolObject) (node : Node ω) :
    (Node.dispatch listeners clock callsign request).run node =
      match (OpenQSP.dispatch ⟨true, true⟩ clock callsign request).run node.tables with
      | (.error e, t) => (.error e, { node with tables := t })
      | (.ok (responses, events), t) => (.ok responses,
          events.foldl (fun node event => Node.publish 0 listeners event node)
            { node with tables := t }) := by
  have hrun : (Node.onTables (OpenQSP.dispatch ⟨true, true⟩ clock callsign request) :
      Method PyError (Node ω) _).run node =
        (((OpenQSP.dispatch ⟨true, true⟩ clock callsign request).run node.tables).1,
          { node with
            tables := ((OpenQSP.dispatch ⟨true, true⟩ clock callsign request).run
              node.tables).2 }) := rfl
  rw [Node.dispatch, run_bind, hrun]
  rcases (OpenQSP.dispatch ⟨true, true⟩ clock callsign request).run node.tables with
    ⟨e | ⟨responses, events⟩, t⟩
  · rfl
  · rfl

/-- The frames that are returned are decoded as the responses they encode. -/
theorem map_decodeFrame {responses : List ProtocolObject} {frames : List Bytes}
    (h : List.Forall₂ (fun response data => encodeFrame response false = .ok data) responses
      frames) :
    frames.map decodeFrame = responses.map .ok := by
  induction h with
  | nil => rfl
  | cons hencode _ ih => rw [List.map_cons, List.map_cons, decodeFrame_of_encodeFrame hencode, ih]

/-- The frames that are returned for a request are an encoded answer to it. -/
theorem Node.handleFrame_answers {frame : Bytes} {frames : List Bytes}
    (h : (Node.handleFrame listeners clock callsign frame).run node = (.ok frames, node'))
    {request : ProtocolObject} (hrequest : decodeFrame frame = .ok request) :
    ∃ responses, Answers request responses ∧
      List.Forall₂ (fun response data => encodeFrame response false = .ok data) responses
        frames := by
  rcases handleFrame_eq_ok (congrArg Prod.fst h) with
    ⟨request', responses, hrequest', hdispatch, hframes⟩ | ⟨hnone, -⟩
  · obtain rfl := Except.ok.inj (hrequest.symm.trans hrequest')
    refine ⟨responses, ?_, hframes⟩
    rw [Node.run_dispatch] at hdispatch
    split at hdispatch
    · cases hdispatch
    · next hrun =>
      obtain rfl := Except.ok.inj (Prod.mk.inj hdispatch).1
      exact (dispatch_cases hrun).1
  · exact absurd hrequest (hnone request)

end Node

end OpenQSP
