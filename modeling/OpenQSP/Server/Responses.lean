import OpenQSP.Server.Acceptance

/-!
# What the handlers answer

A client draws conclusions from the kind of a response: `STORED` says that its message is in the
database. That is true of the handlers, for any tables.

## Main definitions

* `Responds` — every response of a handler has a property

## Main results

* `dispatch_stored` — what a `STORED` implies
* `storedMessage_sequence`, `messageEvent_sequence` — a message is sent under its own sequence
-/

namespace OpenQSP

open Method

/-- Every response that the handler returns satisfies `p`. -/
def Responds (p : ProtocolObject → Prop) (m : Method PyError Tables (List ProtocolObject)) : Prop :=
  ∀ t responses, (m.run t).1 = .ok responses → ∀ response ∈ responses, p response

namespace Responds

variable {p : ProtocolObject → Prop} {m : Method PyError Tables (List ProtocolObject)}

theorem pure {responses : List ProtocolObject} (h : ∀ response ∈ responses, p response) :
    Responds p (Pure.pure responses) := by
  intro _ _ hrun
  obtain rfl := Except.ok.inj hrun
  exact h

theorem singleton {response : ProtocolObject} (h : p response) :
    Responds p (Pure.pure [response]) :=
  pure fun _ hmem => List.mem_singleton.mp hmem ▸ h

theorem raise (e : PyError) : Responds p (Method.raise e) := fun _ _ h => (nomatch h)

theorem ite {c : Prop} [Decidable c] {m' : Method PyError Tables (List ProtocolObject)}
    (h : Responds p m) (h' : Responds p m') : Responds p (if c then m else m') := by
  split
  · exact h
  · exact h'

theorem get_bind {f : Tables → Method PyError Tables (List ProtocolObject)}
    (h : ∀ t, Responds p (f t)) : Responds p (get >>= f) := fun t => h t t

theorem ofExcept_bind {α : Type} {x : Py α} {f : α → Method PyError Tables (List ProtocolObject)}
    (h : ∀ a, Responds p (f a)) : Responds p (Method.ofExcept x >>= f) := by
  intro t responses hrun
  cases x with
  | error e => cases hrun
  | ok a => exact h a t responses hrun

theorem withCallsign {callsign : Str} {unauthorized : List ProtocolObject}
    {handler : Str → Method PyError Tables (List ProtocolObject)}
    (hu : ∀ response ∈ unauthorized, p response) (h : ∀ callsign, Responds p (handler callsign)) :
    Responds p (OpenQSP.withCallsign callsign unauthorized handler) := by
  rw [OpenQSP.withCallsign]
  split
  · exact h _
  · exact ite (pure hu) (raise _)

end Responds

/-! ### Nothing but a stored message is answered with `STORED` -/

section NotStored

variable {operation : Operation} {code : ErrorCode} {detail : String} {stores : Stores}
  {callsign : Str}

theorem errorResponse_ne_stored {response : ProtocolObject}
    (h : response ∈ [errorResponse operation code detail]) : response ≠ .stored := by
  rw [List.mem_singleton.mp h]
  exact nofun

theorem pageError_eq_ok {name : String} {e : PyError} {responses : List ProtocolObject}
    (h : pageError operation name e = .ok responses) :
    ∃ code detail, responses = [errorResponse operation code detail] := by
  rw [pageError] at h
  split at h
  · exact ⟨_, _, (Except.ok.inj h).symm⟩
  · split at h
    · exact ⟨_, _, (Except.ok.inj h).symm⟩
    · cases h

theorem pageError_notStored (name : String) (e : PyError) :
    Responds (· ≠ .stored) (ofExcept (pageError operation name e)) := by
  intro t responses h
  rw [run_ofExcept] at h
  obtain ⟨code, detail, rfl⟩ := pageError_eq_ok h
  exact fun _ => errorResponse_ne_stored

theorem handleGetNewMessages_notStored (request : GetNewMessages) :
    Responds (· ≠ .stored) (handleGetNewMessages stores callsign request) := by
  refine Responds.ite (Responds.singleton nofun) ?_
  refine Responds.withCallsign (fun _ => errorResponse_ne_stored) fun _ => ?_
  refine Responds.get_bind fun t => ?_
  split
  · exact pageError_notStored _ _
  · refine Responds.ofExcept_bind fun messages => Responds.pure fun response h => ?_
    rcases List.mem_append.mp h with h | h
    · obtain ⟨message, -, rfl⟩ := List.mem_map.mp h
      exact nofun
    · rw [List.mem_singleton.mp h]
      exact nofun

theorem handleGetNewBulletins_notStored (request : GetNewBulletins) :
    Responds (· ≠ .stored) (handleGetNewBulletins stores callsign request) := by
  refine Responds.ite (Responds.singleton nofun) ?_
  refine Responds.withCallsign (fun _ => errorResponse_ne_stored) fun _ => ?_
  refine Responds.get_bind fun t => ?_
  split
  · exact pageError_notStored _ _
  · refine Responds.pure fun response h => ?_
    rcases List.mem_append.mp h with h | h
    · obtain ⟨header, -, rfl⟩ := List.mem_map.mp h
      exact nofun
    · rw [List.mem_singleton.mp h]
      exact nofun

theorem handleGetBulletin_notStored (request : GetBulletin) :
    Responds (· ≠ .stored) (handleGetBulletin stores callsign request) := by
  refine Responds.ite (Responds.singleton nofun) ?_
  refine Responds.withCallsign (fun _ => errorResponse_ne_stored) fun _ => ?_
  refine Responds.get_bind fun t => ?_
  split
  · exact Responds.ite (Responds.singleton nofun) (Responds.raise _)
  · exact Responds.singleton nofun
  · exact Responds.singleton nofun

theorem handleGetMessage_notStored (request : GetMessage) :
    Responds (· ≠ .stored) (handleGetMessage stores callsign request) := by
  refine Responds.ite (Responds.singleton nofun) ?_
  refine Responds.withCallsign (fun _ => errorResponse_ne_stored) fun _ => ?_
  split
  · exact Responds.ite (Responds.singleton nofun) (Responds.raise _)
  · refine Responds.get_bind fun t => ?_
    split
    · exact Responds.ite (Responds.singleton nofun) (Responds.raise _)
    · exact Responds.singleton nofun
    · exact Responds.singleton nofun

end NotStored

/-! ### What a `STORED` implies -/

section Stored

variable {stores : Stores} {clock : ℤ} {callsign : Str} {t t' : Tables}

/-- An unkeyed message is stored, or nothing changes; this needs no invariant of the tables. -/
theorem acceptMessage_unkeyed {author recipient body : Str} {createdAt : ℤ}
    {result : MessageAcceptance × Option Message}
    (h : (acceptMessage author recipient body createdAt none [] clock).run t = (.ok result, t')) :
    ∃ message, Accepts t createdAt author recipient body t' message := by
  obtain ⟨-, hok⟩ := storeMessage_spec t createdAt author recipient body clock []
  rw [acceptMessage] at h
  cases hvalid : validateSend author recipient body createdAt with
  | error e =>
    rw [hvalid] at h
    cases h
  | ok =>
    rw [hvalid, run_ofExcept_ok_bind, run_bind, storeAccepted, run_bind] at h
    rcases hrun : (storeMessage createdAt author recipient body clock []).run t with
      ⟨e | sequence, t₁⟩
    · rw [hrun] at h
      cases h
    · rw [hrun] at hok h
      obtain ⟨message, haccepts, rfl⟩ := hok sequence rfl
      simp only [run_get_bind, getMessage_of_accepts haccepts, run_ofExcept_ok_bind,
        run_pure, if_true] at h
      refine ⟨message, ?_⟩
      cases hevent : messageEvent message t₁ with
      | error e =>
        rw [hevent] at h
        cases h
      | ok event =>
        rw [hevent] at h
        obtain ⟨-, rfl⟩ := Prod.mk.inj h
        exact haccepts

theorem handleSendMessage_stored {request : SendMessage} {responses : List ProtocolObject}
    {events : List Message}
    (h : (handleSendMessage stores clock callsign request).run t = (.ok (responses, events), t'))
    (hstored : .stored ∈ responses) :
    ∃ author message, validateCallsign callsign "authenticated_callsign" = .ok author ∧
      Accepts t request.createdAt author request.recipient request.body t' message := by
  rw [handleSendMessage] at h
  split at h
  · obtain ⟨rfl, -⟩ := Prod.mk.inj (Except.ok.inj (Prod.mk.inj h).1)
    exact absurd rfl (errorResponse_ne_stored hstored)
  rw [withCallsign] at h
  split at h
  · next author hauthor =>
    rcases hrun : (acceptMessage author request.recipient request.body request.createdAt none []
      clock).run t with ⟨e | result, t₁⟩
    · rw [run_catchError_of_error (run_bind_of_error hrun _)] at h
      split at h
      · obtain ⟨rfl, -⟩ := Prod.mk.inj (Except.ok.inj (Prod.mk.inj h).1)
        exact absurd rfl (errorResponse_ne_stored hstored)
      · split at h
        · obtain ⟨rfl, -⟩ := Prod.mk.inj (Except.ok.inj (Prod.mk.inj h).1)
          exact absurd rfl (errorResponse_ne_stored hstored)
        · cases h
    · rw [run_catchError_of_ok (run_bind_of_ok hrun _)] at h
      obtain rfl := (Prod.mk.inj h).2
      obtain ⟨message, haccepts⟩ := acceptMessage_unkeyed hrun
      exact ⟨author, message, hauthor, haccepts⟩
  · split at h
    · obtain ⟨rfl, -⟩ := Prod.mk.inj (Except.ok.inj (Prod.mk.inj h).1)
      exact absurd rfl (errorResponse_ne_stored hstored)
    · cases h

/-- Only a `SEND_MESSAGE` is answered with `STORED`, and then its message is in the tables. -/
theorem dispatch_stored {request : ProtocolObject} {responses : List ProtocolObject}
    {events : List Message}
    (h : (dispatch stores clock callsign request).run t = (.ok (responses, events), t'))
    (hstored : .stored ∈ responses) :
    ∃ value author message, request = .sendMessage value ∧
      validateCallsign callsign "authenticated_callsign" = .ok author ∧
      Accepts t value.createdAt author value.recipient value.body t' message := by
  have hquiet : ∀ {m : Method PyError Tables (List ProtocolObject)}, Responds (· ≠ .stored) m →
      (m >>= fun responses => pure (responses, ([] : List Message))).run t ≠
        (.ok (responses, events), t') := by
    intro m hm hrun
    rw [run_bind_pure] at hrun
    rcases hres : (m.run t).1 with e | responses'
    · rw [hres] at hrun
      cases hrun
    · rw [hres] at hrun
      obtain ⟨rfl, -⟩ := Prod.mk.inj (Except.ok.inj (Prod.mk.inj hrun).1)
      exact hm t _ hres _ hstored rfl
  cases request with
  | getMessage request => exact absurd h (hquiet (handleGetMessage_notStored request))
  | getNewMessages request => exact absurd h (hquiet (handleGetNewMessages_notStored request))
  | getNewBulletins request => exact absurd h (hquiet (handleGetNewBulletins_notStored request))
  | getBulletin request => exact absurd h (hquiet (handleGetBulletin_notStored request))
  | sendMessage value =>
    obtain ⟨author, message, hauthor, haccepts⟩ := handleSendMessage_stored h hstored
    exact ⟨value, author, message, rfl, hauthor, haccepts⟩
  | _ =>
    obtain ⟨rfl, -⟩ := Prod.mk.inj (Except.ok.inj (Prod.mk.inj h).1)
    simp at hstored

end Stored

/-! ### The sequence of a message -/

theorem storedMessage_sequence {row : (Str × ℕ) × MessageRow} {message : StoredMessage}
    (h : storedMessage row = .ok message) : message.sequence = row.1.2 := by
  obtain ⟨sequence, hsequence, h⟩ := Py.bind_eq_ok.mp h
  obtain ⟨createdAt, -, h⟩ := Py.bind_eq_ok.mp h
  obtain ⟨_, -, hvalue⟩ := Py.bind_eq_ok.mp hsequence
  obtain rfl := Except.ok.inj hvalue
  split at h
  · cases h
  · rw [← Except.ok.inj h]

theorem messageEvent_sequence {t : Tables} {stored : StoredMessage} {message : Message}
    (h : messageEvent stored t = .ok message) : message.sequence = stored.sequence := by
  obtain ⟨_, -, h⟩ := Py.bind_eq_ok.mp h
  rw [← Except.ok.inj h]

end OpenQSP
