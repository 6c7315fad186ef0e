import OpenQSP.Api.Privacy
import OpenQSP.Protocol.Fields

/-!
# Making a request again

A client that does not see the answer to its request to send makes it again, under the same
idempotency key, at any later time and with any later token. It is answered with the message of its
first request, and nothing is sent twice: only the presence of the client is noted again. Under this
key nothing else is answered.

## Main results

* `send_keyHolds` — a request that was answered leaves its key
* `send_known` — what a request under a known key does
* `keyHolds_later` — the key of an answered request, in all that follows
* **`retries_answered`**
-/

namespace OpenQSP

open Tables

/-- What fits the validation fits it at any time that a message can have. -/
theorem SendCall.Valid.later {call call' : SendCall} (h : call.Valid)
    (hauthor : call'.author = call.author) (hrecipient : call'.recipient = call.recipient)
    (hbody : call'.body = call.body) (htime : ValidU32 call'.createdAt) :
    call'.Valid := by
  obtain ⟨author, hvalidAuthor, h⟩ := Py.bind_eq_ok.mp h
  obtain ⟨recipient, hvalidRecipient, h⟩ := Py.bind_eq_ok.mp h
  obtain ⟨frame, hframe, -⟩ := Py.bind_eq_ok.mp h
  have hvalid := encodable_sendMessage.mp ⟨frame, hframe⟩
  obtain ⟨frame', hframe'⟩ := encodable_sendMessage.mpr
    (⟨htime, hvalid.recipient, hvalid.body⟩ : SendMessage.Valid ⟨call'.createdAt, _, _⟩)
  rw [SendCall.Valid, validateSend, hauthor, hvalidAuthor, hrecipient, hbody]
  rw [Py.ok_bind, hvalidRecipient, Py.ok_bind, hframe']
  rfl

namespace Api

variable {ω τ : Type} {api : APISetup ω τ} {outside : ω}

section Sending

variable {callsign recipient body key : Str} {node : Node ω} {s : APINode ω τ}

/-- The time is the only thing that sets a repeated request apart. -/
theorem sendCall_later {now : ℤ} {sent : SendCall}
    (h : api.sendCall callsign recipient body key now = .ok sent) (now' : ℤ) :
    api.sendCall callsign recipient body key now' =
      .ok { sent with createdAt := now', clock := now' } := by
  obtain ⟨hkey, normalized, hnormalized, rfl⟩ := sendCall_eq_ok.mp h
  exact sendCall_eq_ok.mpr ⟨hkey, normalized, hnormalized, rfl⟩

/-- A call that does not fit the validation does nothing. -/
theorem sendMessage_invalid (listeners : List (Listener ω)) {sent : SendCall} {e : PyError}
    (h : validateSend sent.author sent.recipient sent.body sent.createdAt = .error e) :
    (sendMessage listeners sent).run node = (.error e, node) := by
  rw [sendMessage_run, SendCall.accept, acceptMessage, h]
  rfl

/-- A request that was answered leaves its key, for its message. -/
theorem send_keyHolds (h : Stored s.node.tables) {now : ℤ} {m : APIMessage}
    (hanswer : (api.send callsign recipient body key now s).1 = .ok (.message m)) :
    ∃ sent value, api.sendCall callsign recipient body key now = .ok sent ∧ sent.Valid ∧
      KeyHolds (api.send callsign recipient body key now s).2.node.tables callsign key
        sent.requestHash value ∧
      project (api.send callsign recipient body key now s).2.database value = .ok m := by
  rw [APISetup.send] at hanswer ⊢
  rcases hcall : api.sendCall callsign recipient body key now with e | sent
  · rw [hcall] at hanswer
    cases hanswer
  rw [hcall] at hanswer
  dsimp only at hanswer ⊢
  obtain ⟨-, normalized, -, hsent⟩ := sendCall_eq_ok.mp hcall
  rcases hrun : ((sendMessage api.listeners sent).run s.node).1 with e | acceptance
  · rw [hrun] at hanswer
    cases hanswer
  · rw [hrun] at hanswer
    obtain ⟨shown, hproject, hshown⟩ := Py.map_eq_ok.mp (ofPy_eq_ok.mp hanswer)
    obtain rfl := Response.message.inj hshown
    refine ⟨sent, acceptance.message, rfl, ?_, ?_, hproject⟩
    · rcases hvalid : validateSend sent.author sent.recipient sent.body sent.createdAt with e | _
      · rw [sendMessage_invalid api.listeners hvalid] at hrun
        cases hrun
      · exact hvalid
    · have hauthor : sent.author = callsign := congrArg SendCall.author hsent
      rw [← hauthor]
      exact sendMessage_keyHolds h.consistent (congrArg SendCall.idempotencyKey hsent) hrun

/-- A request under a known key changes nothing. It fails, or is answered with the message of the
key, and this if it is the same request. -/
theorem send_known (api : APISetup ω τ) (h : Stored s.node.tables) {hash : Str}
    {value : StoredMessage} (hholds : KeyHolds s.node.tables callsign key hash value)
    (recipient body : Str) (now : ℤ) :
    (api.send callsign recipient body key now s).2 = s ∧
    ((∃ e, (api.send callsign recipient body key now s).1 = .error e) ∨
      (api.send callsign recipient body key now s).1 =
        ofPy ((project s.database value).map .message)) ∧
    ∀ sent, api.sendCall callsign recipient body key now = .ok sent → sent.Valid →
      sent.requestHash = hash → (api.send callsign recipient body key now s).1 =
        ofPy ((project s.database value).map .message) := by
  rw [APISetup.send]
  rcases hcall : api.sendCall callsign recipient body key now with e | sent
  · refine ⟨rfl, .inl ⟨e, rfl⟩, ?_⟩
    rintro sent ⟨⟩
  dsimp only
  obtain ⟨-, normalized, -, hsent⟩ := sendCall_eq_ok.mp hcall
  rcases hvalid : validateSend sent.author sent.recipient sent.body sent.createdAt with e | _
  · rw [sendMessage_invalid api.listeners hvalid]
    refine ⟨rfl, .inl ⟨_, rfl⟩, ?_⟩
    rintro _ ⟨⟩ hvalid'
    cases hvalid.symm.trans hvalid'
  · have hauthor : sent.author = callsign := congrArg SendCall.author hsent
    rw [← hauthor] at hholds
    rw [sendMessage_known api.listeners h.consistent hvalid
      (congrArg SendCall.idempotencyKey hsent) hholds]
    by_cases hhash : sent.requestHash = hash
    · rw [if_pos hhash]
      exact ⟨rfl, .inr rfl, fun _ _ _ _ => rfl⟩
    · rw [if_neg hhash]
      refine ⟨rfl, .inl ⟨_, rfl⟩, ?_⟩
      rintro _ ⟨⟩ - hhash'
      exact absurd hhash' hhash

end Sending

theorem serve_send {callsign recipient body key : Str} {call : APICall τ}
    (hrequest : call.request = .send recipient body key) (s : APINode ω τ) :
    api.serve callsign call s = api.send callsign recipient body key call.now s := by
  rw [APISetup.serve, hrequest]

/-- The key of a request that was answered is there in all that follows, for its message. -/
theorem keyHolds_later {inputs earlier later : List (Input τ)} {call : APICall τ}
    {callsign recipient body key : Str} {m : APIMessage}
    (hinputs : inputs = earlier ++ .request call :: later)
    (huser : api.user call.credentials call.now = .ok callsign)
    (hrequest : call.request = .send recipient body key)
    (hanswer : (api.respond call (serverAfter api outside earlier)).1 = .ok (.message m)) :
    ∃ sent value, api.sendCall callsign recipient body key call.now = .ok sent ∧ sent.Valid ∧
      KeyHolds (serverAfter api outside inputs).node.tables callsign key sent.requestHash value ∧
      project (serverAfter api outside (earlier ++ [.request call])).database value = .ok m := by
  obtain ⟨callsign', presence, huser', hserve, hnode⟩ := respond_eq_ok hanswer
  obtain rfl := Except.ok.inj (huser.symm.trans huser')
  rw [serve_send hrequest] at hserve hnode
  obtain ⟨sent, value, hcall, hvalid, hholds, hproject⟩ :=
    send_keyHolds (serverAfter_stored earlier) hserve
  have hafter : (serverAfter api outside (earlier ++ [.request call])).database =
      (api.send callsign recipient body key call.now
        (serverAfter api outside earlier)).2.database := by
    rw [serverAfter_concat]
    show (api.respond call _).2.database = _
    rw [hnode]
    rfl
  have htables : (serverAfter api outside (earlier ++ [.request call])).node.tables =
      (api.send callsign recipient body key call.now
        (serverAfter api outside earlier)).2.node.tables := congrArg Database.toTables hafter
  have hkept := serverAfter_kept api outside (earlier ++ [.request call]) later
  rw [List.append_assoc, List.singleton_append, ← hinputs, htables] at hkept
  refine ⟨sent, value, hcall, hvalid, hholds.mono hkept, ?_⟩
  rw [hafter]
  exact hproject

/-- **A request may be made again.** In every run: once a request to send has been answered, every
later request of its callsign under its idempotency key changes nothing but the presence of its
callsign. It fails, or is answered with the same message, with the state that this has then; and if
it has the same recipient and body it is always answered so. -/
theorem retries_answered {inputs earlier later : List (Input τ)} {call call' : APICall τ}
    {callsign recipient recipient' body body' key : Str} {m : APIMessage}
    (hinputs : inputs = earlier ++ .request call :: later)
    (huser : api.user call.credentials call.now = .ok callsign)
    (hrequest : call.request = .send recipient body key)
    (hanswer : (api.respond call (serverAfter api outside earlier)).1 = .ok (.message m))
    (huser' : api.user call'.credentials call'.now = .ok callsign)
    (hrequest' : call'.request = .send recipient' body' key) :
    (∃ presence, (api.respond call' (serverAfter api outside inputs)).2 =
        (serverAfter api outside inputs).withPresence presence ∧
      ∀ other, other ≠ callsign → presence.get? other =
        (serverAfter api outside inputs).sockets.hub.presence.get? other) ∧
    ∃ value state,
      project (serverAfter api outside (earlier ++ [.request call])).database value = .ok m ∧
      (serverAfter api outside inputs).database.messageState value = .ok state ∧
      ((∃ e, (api.respond call' (serverAfter api outside inputs)).1 = .error e) ∨
        (api.respond call' (serverAfter api outside inputs)).1 =
          .ok (.message (m.withState state))) ∧
      (recipient' = recipient → body' = body → ValidU32 call'.now →
        (api.respond call' (serverAfter api outside inputs)).1 =
          .ok (.message (m.withState state))) := by
  have hcallsign := valid_of_respond (serverAfter_owned earlier) huser hanswer
  obtain ⟨sent, value, hcall, hvalid, hholds, hproject⟩ :=
    keyHolds_later hinputs huser hrequest hanswer
  obtain ⟨hsame, hanswers, hrepeated⟩ := send_known api (serverAfter_stored inputs) hholds
    recipient' body' call'.now
  -- The message of the key is a row, and is shown with the state that it has now.
  obtain ⟨-, -, -, e, he, -, hvalue⟩ := hholds
  have hstored : Stored (serverAfter api outside inputs).database.toTables :=
    serverAfter_stored inputs
  obtain ⟨state, hstate⟩ := hstored.exists_state he hvalue
  rw [project_of_shows (shows_of_project hvalue hproject) hvalue hstate] at hanswers hrepeated
  have hresponse : (api.respond call' (serverAfter api outside inputs)).1 =
      (api.send callsign recipient' body' key call'.now (serverAfter api outside inputs)).1 := by
    rw [respond_of_valid (serverAfter_owned inputs) hcallsign huser', serve_send hrequest']
  refine ⟨?_, value, state, hproject, hstate, ?_, ?_⟩
  · obtain ⟨presence, hnode, hothers⟩ := recordActivity_snd callsign
      (api.serve callsign call' (serverAfter api outside inputs))
    rw [serve_send hrequest', hsame] at hnode hothers
    refine ⟨presence, ?_, hothers⟩
    rw [respond_of_user huser', serve_send hrequest', hnode]
  · rw [hresponse]
    exact hanswers
  · rintro rfl rfl htime
    rw [hresponse]
    exact hrepeated _ (sendCall_later hcall call'.now) (hvalid.later rfl rfl rfl htime) rfl

/-- `sampleSend`, made again a second later. -/
def sampleRetry : APICall Payload :=
  { sampleSend with now := 1002 }

theorem retries_answered_sampleRetry : ∃ value state,
    project (serverAfter plainAPI () (sampleLogin ++ [.request sampleSend])).database value =
      .ok sampleShown ∧
    (serverAfter plainAPI () (sampleLogin ++ [.request sampleSend])).database.messageState value =
      .ok state ∧
    (plainAPI.respond sampleRetry
      (serverAfter plainAPI () (sampleLogin ++ [.request sampleSend]))).1 =
        .ok (.message (sampleShown.withState state)) := by
  obtain ⟨-, value, state, hproject, hstate, -, hrepeated⟩ := retries_answered
    (show sampleLogin ++ [.request sampleSend] = sampleLogin ++ .request sampleSend :: [] from rfl)
    (show plainAPI.user sampleSend.credentials sampleSend.now = .ok (str "EA1ABC") from rfl) rfl
    respond_sampleSend
    (show plainAPI.user sampleRetry.credentials sampleRetry.now = .ok (str "EA1ABC") from rfl) rfl
  exact ⟨value, state, hproject, hstate, hrepeated rfl rfl ⟨by decide, by decide⟩⟩

end Api

end OpenQSP
