import OpenQSP.Server.Serving
import OpenQSP.Storage.Availability

/-!
# Every frame is answered

`handle_frame` lets no exception escape as long as what is stored fits: the decoder raises only what
is caught, every handler turns what it can meet into an answer, and every answer can be encoded. The
messages fit because they were all created by `send_message`; the stores themselves do not check
this for bulletins, so it is asked of those who store them.

## Main definitions

* `Tables.Servable` — the database is sound, and everything in it fits
* `ServedCall`, `servedState` — runs in which only `send_message` stores messages
* `WellShaped` — the shape of what is answered to a frame

## Main results

* `servable_servedState`
* `Tables.Servable.answered` — no exception escapes
* **`handleFrame_answersEverything`** — every frame of every client in every reachable state
-/

namespace OpenQSP

open Method Tables

/-! ### Everything fits -/

/-- The database is sound, and the encoder accepts everything in it. -/
structure Tables.Servable (t : Tables) : Prop where
  sound : t.Sound
  messages : ∀ e ∈ t.messages.entries, ∀ stored, storedMessage e = .ok stored → stored.Fits
  bulletins : ∀ e ∈ t.bulletins.entries, ∀ bulletin, storedBulletin e = .ok bulletin → bulletin.Fits

/-- A bulletin that fits has a header that fits. -/
theorem Tables.Servable.header_fits {t : Tables} (h : t.Servable) {e : ℕ × BulletinRow}
    (he : e ∈ t.bulletins.entries) {header : StoredBulletinHeader}
      (hheader : storedHeader e = .ok header) :
    header.Fits := by
  obtain ⟨bulletin, hbulletin⟩ := h.sound.bulletins.readable e he
  obtain ⟨hcreated, hauthor, htitle, -⟩ := h.bulletins e he bulletin hbulletin
  obtain ⟨header', hheader', hbulletin⟩ := Py.bind_eq_ok.mp hbulletin
  obtain rfl := Except.ok.inj (hheader.symm.trans hheader')
  split at hbulletin
  · cases hbulletin
  · obtain rfl := Except.ok.inj hbulletin
    exact ⟨hcreated, hauthor, htitle⟩

theorem Tables.servable_fresh : Tables.fresh.Servable :=
  ⟨sound_fresh, fun _ h => (nomatch h), fun _ h => (nomatch h)⟩

/-- A call of the stores by those who keep the rules of the encoder. -/
inductive ServedCall
  | send (call : SendCall)
  | bulletin (createdAt : ℤ) (author title body : Str) (clock : ℤ) (faults : Faults)
  | delivery (recipient : Str) (sequence : ℤ) (transport : Str) (status : DeliveryStatus)
      (deliveredAt : Option ℤ) (faults : Faults)

namespace ServedCall

/-- The rules of the encoder for a bulletin. The messages are checked by `send_message`. -/
def Fits : ServedCall → Prop
  | bulletin createdAt author title body _ _ => createdAt ≠ 0 ∧ ValidCallsign author ∧
      ValidText minBulletinTitleLength maxBulletinTitleLength title ∧
      ValidText minBulletinBodyLength maxBulletinBodyLength body
  | _ => True

/-- The database after a call. -/
def next (t : Tables) : ServedCall → Tables
  | send call => (call.accept.run t).2
  | bulletin createdAt author title body clock faults =>
    (DatabaseCall.bulletin createdAt author title body clock faults).next t
  | delivery recipient sequence transport status deliveredAt faults =>
    (DatabaseCall.delivery recipient sequence transport status deliveredAt faults).next t

/-- What one call keeps. -/
theorem next_servable {t : Tables} (h : t.Servable) {call : ServedCall} (hcall : call.Fits) :
    (call.next t).Servable := by
  cases call with
  | send call =>
    obtain ⟨herr, hok⟩ := call.accept_spec h.sound.messages
    rw [next]
    rcases hrun : call.accept.run t with ⟨e | ⟨acceptance, event⟩, t'⟩
    · rw [hrun] at herr
      obtain rfl : t' = t := herr e rfl
      exact h
    · rw [hrun] at hok
      have houtcome := (hok _ rfl).1
      dsimp only at houtcome ⊢
      have hbulletins : t'.bulletins = t.bulletins := houtcome.bulletins.1
      refine ⟨houtcome.sound h.sound, ?_, by rw [hbulletins]; exact h.bulletins⟩
      rcases hcreated : acceptance.created with _ | _
      · rw [hcreated] at houtcome
        obtain ⟨rfl, -⟩ := houtcome.replayed_stored
        exact h.messages
      · have hfits := call.accept_fits h.sound.messages hrun hcreated
        rw [hcreated] at houtcome
        obtain ⟨⟨e, -, hentries, hstored⟩, -⟩ := houtcome.stored
        intro e' he' stored hstored'
        rw [hentries] at he'
        rcases List.mem_append.mp he' with he' | he'
        · exact h.messages e' he' stored hstored'
        · obtain rfl := List.mem_singleton.mp he'
          obtain rfl := Except.ok.inj (hstored.symm.trans hstored')
          exact hfits
  | bulletin createdAt author title body clock faults =>
    obtain ⟨herr, hok⟩ := storeBulletin_spec t createdAt author title body clock faults
    have hsound := (DatabaseCall.next_spec h.sound
      (.bulletin createdAt author title body clock faults)).1
    have hnext : (DatabaseCall.bulletin createdAt author title body clock faults).next t =
      ((storeBulletin createdAt author title body clock faults).run t).2 := (run_discard _ t).1
    rw [next]
    rw [hnext] at hsound ⊢
    rcases hrun : ((storeBulletin createdAt author title body clock faults).run t).1 with
      e | sequence
    · rw [herr e hrun]
      exact h
    · obtain ⟨bulletin, hpublishes, -⟩ := hok sequence hrun
      obtain ⟨row, hentries, hstored, htables⟩ := hpublishes.entries
      obtain ⟨hcreated, hauthor, htitle, hbody⟩ := hcall
      refine ⟨hsound, by rw [htables]; exact h.messages, ?_⟩
      intro e' he' bulletin' hstored'
      rw [hentries] at he'
      rcases List.mem_append.mp he' with he' | he'
      · exact h.bulletins e' he' bulletin' hstored'
      · obtain rfl := List.mem_singleton.mp he'
        obtain rfl := Except.ok.inj (hstored.symm.trans hstored')
        have hat := hpublishes.created.1
        rw [hpublishes.bulletin_eq]
        refine ⟨fun hzero => hcreated ?_, hauthor, htitle, hbody⟩
        rw [← hat]
        exact congrArg Nat.cast hzero
  | delivery recipient sequence transport status deliveredAt faults =>
    obtain ⟨herr, hok⟩ := setDelivery_spec t recipient sequence transport status deliveredAt faults
    have hsound := (DatabaseCall.next_spec h.sound
      (.delivery recipient sequence transport status deliveredAt faults)).1
    have hnext : (DatabaseCall.delivery recipient sequence transport status deliveredAt
      faults).next t =
      ((setDelivery recipient sequence transport status deliveredAt faults).run t).2 :=
      (run_discard _ t).1
    rw [next]
    rw [hnext] at hsound ⊢
    rcases hrun : ((setDelivery recipient sequence transport status deliveredAt faults).run t).1
      with e | changed
    · rw [herr e hrun]
      exact h
    · obtain ⟨deliveries, ht'⟩ := hok changed hrun
      rw [ht'] at hsound ⊢
      exact ⟨hsound, h.messages, h.bulletins⟩

end ServedCall

/-- The database after the calls, on a new database. -/
def servedState (calls : List ServedCall) : Tables := calls.foldl ServedCall.next Tables.fresh

theorem servable_servedState {calls : List ServedCall} (hcalls : ∀ call ∈ calls, call.Fits) :
    (servedState calls).Servable := by
  have hfold : ∀ t : Tables, t.Servable → (calls.foldl ServedCall.next t).Servable := by
    induction calls with
    | nil => exact fun t h => h
    | cons call calls ih =>
      exact fun t h => ih (fun call' hcall' => hcalls call' (List.mem_cons_of_mem _ hcall')) _
        (ServedCall.next_servable h (hcalls call List.mem_cons_self))
  exact hfold _ servable_fresh

/-! ### Answers that are errors -/

/-- A callsign is refused with the one class that the handlers catch. -/
theorem validateCallsign_raises (value : Str) (field : String) :
    Raises (fun e => e.isA .invalidFieldError) (validateCallsign value field) := by
  have htext : Raises (fun e => e.isA .invalidFieldError)
      (textBytes value field minCallsignLength maxCallsignLength) := by
    rw [textBytes]
    split
    · exact .error rfl
    · exact .ite (.error rfl) (.ite (.error rfl) (.ite (.error rfl) (.ok _)))
  have hbytes : Raises (fun e => e.isA .invalidFieldError) (callsignBytes value field) :=
    htext.bind fun _ => Raises.bind (.check rfl) fun _ => Raises.bind (.check rfl) fun _ => .ok _
  exact hbytes.bind fun _ => .ok _

/-- An invalid callsign is raised by `validate_callsign` and caught. -/
theorem exists_invalidField {value : Str} (h : ¬ValidCallsign value) (field : String) :
    ∃ e, validateCallsign value field = .error e ∧ e.isA .invalidFieldError := by
  rcases hvalidate : validateCallsign value field with e | value'
  · exact ⟨e, rfl, validateCallsign_raises value field e hvalidate⟩
  · obtain ⟨data, hdata, -⟩ := Py.bind_eq_ok.mp hvalidate
    exact absurd ((exists_callsignBytes field).mp ⟨data, hdata⟩) h

theorem withCallsign_refused {α : Type} {callsign : Str} (h : ¬ValidCallsign callsign)
    (unauthorized : α) (handler : Str → Method PyError Tables α) :
    withCallsign callsign unauthorized handler = pure unauthorized := by
  obtain ⟨e, he, hcaught⟩ := exists_invalidField h "authenticated_callsign"
  rw [withCallsign, he]
  exact if_pos hcaught

/-- A plain text of at most 64 characters is the detail of an `ERROR`. -/
theorem encodable_errorResponse (operation : Operation) (code : ErrorCode) {detail : String}
    (h : AsciiText detail) (hlen : (str detail).length ≤ maxErrorDetailLength) :
    Encodable (errorResponse operation code detail) := by
  have hvalid := h.validText maxErrorDetailLength
  rw [List.take_of_length_le hlen] at hvalid
  exact encodable_error.mpr hvalid

/-! ### Every handler answers -/

/-- The request is answered, and the answer can be encoded. -/
def Tables.Answered (t : Tables) (clock : ℤ) (callsign : Str) (request : ProtocolObject) : Prop :=
  ∃ responses events t', (dispatch ⟨true, true⟩ clock callsign request).run t =
    (.ok (responses, events), t') ∧ ∀ response ∈ responses, Encodable response

section Requests

variable {t : Tables} {clock : ℤ} {callsign : Str} {request : ProtocolObject} {frame : Bytes}

theorem Tables.Answered.error (operation : Operation) (code : ErrorCode) (detail : String)
    {events : List Message} {t' : Tables}
    (hrun : (dispatch ⟨true, true⟩ clock callsign request).run t =
      (.ok ([errorResponse operation code detail], events), t'))
    (h : AsciiText detail) (hlen : (str detail).length ≤ maxErrorDetailLength) :
    t.Answered clock callsign request := by
  refine ⟨_, _, _, hrun, fun response hresponse => ?_⟩
  rw [List.mem_singleton.mp hresponse]
  exact encodable_errorResponse operation code h hlen

/-- Accepting a valid message raises only when the mailbox of the recipient is full. -/
theorem acceptMessage_run (h : t.Consistent) (hcapacity : t.HasCapacity)
    {author recipient body : Str} {createdAt : ℤ}
    (hvalid : validateSend author recipient body createdAt = .ok ())
    (hclock : 0 ≤ clock ∧ clock ≤ maxSqliteInteger) :
    (∃ e, (acceptMessage author recipient body createdAt none [] clock).run t = (.error e, t) ∧
      e.isA .sequenceExhaustedError) ∨
    ∃ result t', (acceptMessage author recipient body createdAt none [] clock).run t =
      (.ok result, t') := by
  obtain ⟨hauthor, hat, hrecipient, data, hdata, -⟩ := validateSend_iff.mp hvalid
  dsimp only at hat hrecipient hdata
  obtain ⟨hencodable, hencodable'⟩ := validateSend_encodable hvalid
  have hmin : 1 ≤ createdAt := hat.1
  have hcreated : 0 ≤ createdAt ∧ createdAt ≤ maxU32 := ⟨by omega, hat.2⟩
  have hstore := storeMessage_run h hcapacity hcreated (Option.isSome_of_eq_some hdata) hencodable
    hencodable' hclock
  obtain ⟨herr, hok⟩ := storeMessage_spec t createdAt author recipient body clock []
  rw [acceptMessage, hvalid, run_ofExcept_ok_bind]
  rcases hrun : (storeMessage createdAt author recipient body clock []).run t with
    ⟨e | sequence, t'⟩
  · rw [hrun] at hstore herr
    obtain rfl : t' = t := herr e rfl
    refine .inl ⟨e, run_bind_of_error (run_bind_of_error hrun _) _, ?_⟩
    split at hstore
    · obtain rfl := Except.error.inj hstore
      rfl
    · cases hstore
  · rw [hrun] at hok
    obtain ⟨message, haccepts, rfl⟩ := hok sequence rfl
    obtain ⟨e, he, -, -, hstored⟩ := haccepts.stored
    obtain ⟨event, hevent⟩ : ∃ event, messageEvent message t' = .ok event :=
      (messageEvent_ok (h.accept haccepts) he hstored).elim fun _ hevent => ⟨_, hevent⟩
    have haccepted : (storeAccepted author recipient body createdAt none [] clock).run t =
        (.ok ⟨message, true⟩, t') := by
      rw [storeAccepted, run_bind_of_ok hrun, run_get_bind, getMessage_of_accepts haccepts]
      rfl
    refine .inr ⟨(⟨message, true⟩, some event), t', ?_⟩
    rw [run_bind_of_ok haccepted, if_pos rfl, run_get_bind, hevent]
    rfl

theorem Tables.Servable.answered_sendMessage (h : t.Servable) (hcapacity : t.HasCapacity)
    (hclock : 0 ≤ clock ∧ clock ≤ maxSqliteInteger) {value : SendMessage}
    (hrequest : decodeFrame frame = .ok (.sendMessage value)) :
    t.Answered clock callsign (.sendMessage value) := by
  have hdispatch : dispatch ⟨true, true⟩ clock callsign (.sendMessage value) =
      handleSendMessage ⟨true, true⟩ clock callsign value := rfl
  by_cases hcallsign : ValidCallsign callsign
  · have hvalid : validateSend callsign value.recipient value.body value.createdAt = .ok () :=
      validateSend_iff.mpr ⟨hcallsign,
        encodable_sendMessage.mp ⟨frame, encodeFrame_of_decodeFrame hrequest nofun⟩⟩
    rw [handleSendMessage, if_neg (by simp),
      withCallsign_ok ((validateCallsign_iff "authenticated_callsign").mpr hcallsign)] at hdispatch
    rcases acceptMessage_run h.sound.messages hcapacity hvalid hclock with
      ⟨e, hrun, hexhausted⟩ | ⟨⟨acceptance, event⟩, t', hrun⟩
    · have hbusy : (dispatch ⟨true, true⟩ clock callsign (.sendMessage value)).run t =
          (.ok ([errorResponse .sendMessage .busy "message storage exhausted"], []), t) := by
        rw [hdispatch, run_catchError_of_error (run_bind_of_error hrun _), if_pos hexhausted]
        rfl
      exact .error _ _ _ hbusy (.ofList rfl) (by decide)
    · refine ⟨[.stored], event.toList, t', ?_, fun response hresponse => ?_⟩
      · rw [hdispatch, run_catchError_of_ok (run_bind_of_ok hrun _)]
      · rw [List.mem_singleton.mp hresponse]
        exact ⟨_, rfl⟩
  · have hunauthorized : (dispatch ⟨true, true⟩ clock callsign (.sendMessage value)).run t =
        (.ok ([errorResponse .sendMessage .unauthorized "invalid authenticated callsign"], []),
          t) := by
      rw [hdispatch, handleSendMessage, if_neg (by simp), withCallsign_refused hcallsign]
      rfl
    exact .error _ _ _ hunauthorized (.ofList rfl) (by decide)

/-- A request that only reads is answered when its handler returns what can be encoded. -/
theorem Tables.Answered.quiet {m : Method PyError Tables (List ProtocolObject)}
    (hdispatch : dispatch ⟨true, true⟩ clock callsign request =
      m >>= fun responses => pure (responses, ([] : List Message)))
    {responses : List ProtocolObject} (hrun : m.run t = (.ok responses, t))
    (hall : ∀ response ∈ responses, Encodable response) : t.Answered clock callsign request :=
  ⟨responses, [], t, by rw [hdispatch, run_quiet hrun], hall⟩

theorem Tables.Answered.quiet_error {m : Method PyError Tables (List ProtocolObject)}
    (hdispatch : dispatch ⟨true, true⟩ clock callsign request =
      m >>= fun responses => pure (responses, ([] : List Message)))
    (operation : Operation) (code : ErrorCode) (detail : String)
    (hrun : m.run t = (.ok [errorResponse operation code detail], t))
    (h : AsciiText detail) (hlen : (str detail).length ≤ maxErrorDetailLength) :
    t.Answered clock callsign request :=
  .error operation code detail (by rw [hdispatch, run_quiet hrun]) h hlen

theorem Tables.Servable.answered_getNewMessages (h : t.Servable) {since limit : ℤ}
    (hrequest : decodeFrame frame = .ok (.getNewMessages ⟨since, limit⟩)) :
    t.Answered clock callsign (.getNewMessages ⟨since, limit⟩) := by
  obtain ⟨hpos, hmax, hlimit⟩ := getNewMessages_of_decodeFrame hrequest
  by_cases hvalid : ValidCallsign callsign
  · have hcallsign := (validateCallsign_iff "authenticated_callsign").mpr hvalid
    rcases le_or_gt since (t.highest callsign : ℤ) with hle | hgt
    · obtain ⟨sent, hsent, hrun⟩ :=
        handleGetNewMessages_ok true h.sound.messages hcallsign hpos hle hlimit
      refine .quiet rfl hrun (h.sound.messages.encodable_messages callsign hpos hle hlimit hsent ?_)
      exact fun e he => h.messages e (h.sound.messages.mem_mailbox.mp (page_subset_beyond he).1).1
    · exact .quiet_error rfl _ _ _ (handleGetNewMessages_ahead true h.sound.messages hcallsign hgt
        hmax hlimit)
        (.ofList rfl) (by decide)
  · refine .quiet_error (m := handleGetNewMessages ⟨true, true⟩ callsign ⟨since, limit⟩) rfl
      .getNewMessages .unauthorized "invalid authenticated callsign" ?_ (.ofList rfl) (by decide)
    rw [handleGetNewMessages, if_neg (by simp), withCallsign_refused hvalid]
    rfl

theorem Tables.Servable.answered_getNewBulletins (h : t.Servable) {since limit : ℤ}
    (hrequest : decodeFrame frame = .ok (.getNewBulletins ⟨since, limit⟩)) :
    t.Answered clock callsign (.getNewBulletins ⟨since, limit⟩) := by
  obtain ⟨hpos, hmax, hlimit⟩ := getNewBulletins_of_decodeFrame hrequest
  by_cases hvalid : ValidCallsign callsign
  · have hcallsign := (validateCallsign_iff "authenticated_callsign").mpr hvalid
    rcases le_or_gt since (t.bulletinSequence : ℤ) with hle | hgt
    · obtain ⟨sent, hsent, hrun⟩ :=
        handleGetNewBulletins_ok true h.sound.bulletins hcallsign hpos hle hlimit
      refine .quiet rfl hrun (h.sound.bulletins.encodable_headers hpos hle hlimit hsent ?_)
      exact fun e he header hheader => h.header_fits (page_subset_beyond he).1 hheader
    · exact .quiet_error rfl _ _ _ (handleGetNewBulletins_ahead true h.sound.bulletins hcallsign hgt
        hmax hlimit)
        (.ofList rfl) (by decide)
  · refine .quiet_error (m := handleGetNewBulletins ⟨true, true⟩ callsign ⟨since, limit⟩) rfl
      .getNewBulletins .unauthorized "invalid authenticated callsign" ?_ (.ofList rfl) (by decide)
    rw [handleGetNewBulletins, if_neg (by simp), withCallsign_refused hvalid]
    rfl

/-- A sequence that no bulletin has. -/
theorem getBulletin_missing {sequence : ℤ} (hsequence : ValidU32 sequence)
    (h : ∀ e ∈ t.bulletins.entries, (e.1 : ℤ) ≠ sequence) : getBulletin sequence t = .ok none := by
  obtain ⟨hmin, hmax⟩ : 1 ≤ sequence ∧ sequence ≤ 0xFFFFFFFF := hsequence
  have hfind : t.bulletins.entries.find? (fun e => (e.1 : ℤ) = sequence) = none :=
    List.find?_eq_none.mpr fun e he => by simpa using h e he
  rw [getBulletin, requireNonzeroU32, requireU32_of_le _ (by omega) hmax, Py.ok_bind,
    raiseIf_of_not (by omega), Py.ok_bind, hfind]
  rfl

theorem Tables.Servable.answered_getBulletin (h : t.Servable) {sequence : ℤ}
    (hrequest : decodeFrame frame = .ok (.getBulletin ⟨sequence⟩)) :
    t.Answered clock callsign (.getBulletin ⟨sequence⟩) := by
  have hsequence := getBulletin_of_decodeFrame hrequest
  by_cases hvalid : ValidCallsign callsign
  · have hcallsign := (validateCallsign_iff "authenticated_callsign").mpr hvalid
    by_cases hthere : ∃ e ∈ t.bulletins.entries, (e.1 : ℤ) = sequence
    · obtain ⟨e, he, rfl⟩ := hthere
      obtain ⟨bulletin, hstored⟩ := h.sound.bulletins.readable e he
      have hfound := getBulletin_found he hstored
      rw [storedBulletin_sequence hstored] at hfound
      refine .quiet rfl (handleGetBulletin_found callsign true hcallsign hfound)
        fun response hresponse => ?_
      rw [List.mem_singleton.mp hresponse]
      exact encodable_bulletin.mpr ((valid_toBulletin hstored).mpr
        (h.bulletins e he bulletin hstored))
    · refine .quiet_error (m := handleGetBulletin ⟨true, true⟩ callsign ⟨sequence⟩) rfl
        .getBulletin .notFound "bulletin not found" ?_ (.ofList rfl) (by decide)
      rw [handleGetBulletin, if_neg (by simp), withCallsign_ok hcallsign, run_get_bind,
        getBulletin_missing hsequence fun e he heq => hthere ⟨e, he, heq⟩]
      rfl
  · refine .quiet_error (m := handleGetBulletin ⟨true, true⟩ callsign ⟨sequence⟩) rfl
      .getBulletin .unauthorized "invalid authenticated callsign" ?_ (.ofList rfl) (by decide)
    rw [handleGetBulletin, if_neg (by simp), withCallsign_refused hvalid]
    rfl

theorem Tables.Servable.answered_getMessage (h : t.Servable) {value : GetMessage}
    (hrequest : decodeFrame frame = .ok (.getMessage value)) :
    t.Answered clock callsign (.getMessage value) := by
  have hunauthorized : (handleGetMessage ⟨true, true⟩ callsign value).run t =
      (.ok [errorResponse .getMessage .unauthorized "invalid callsign"], t) →
      t.Answered clock callsign (.getMessage value) := fun hrun =>
    .quiet_error rfl _ _ _ hrun (.ofList rfl) (by decide)
  obtain ⟨peer, k⟩ := value
  obtain ⟨hmin, hmax⟩ : 1 ≤ k ∧ k ≤ 0xFFFFFFFF := getMessage_of_decodeFrame hrequest
  obtain ⟨n, rfl⟩ := Int.eq_ofNat_of_zero_le (by omega : 0 ≤ k)
  have hn : 1 ≤ n ∧ n ≤ maxU32 := by rw [maxU32]; omega
  by_cases hvalid : ValidCallsign callsign
  · have hcallsign := (validateCallsign_iff "authenticated_callsign").mpr hvalid
    by_cases hpeer : ValidCallsign peer
    · have hpeer := (validateCallsign_iff "peer").mpr hpeer
      rcases Nat.lt_or_ge (n - 1) (t.conversation callsign peer).length with hlt | hge
      · obtain ⟨hentry, -⟩ := h.sound.messages.mem_conversation.mp (List.getElem_mem hlt)
        obtain ⟨stored, hstored⟩ := h.sound.messages.readable _ hentry
        have hfound := getConversationMessage_getElem h.sound.messages hlt hstored
        rw [Nat.sub_add_cancel hn.1] at hfound
        refine .quiet rfl (handleGetMessage_found true hcallsign hpeer hfound)
          fun response hresponse => ?_
        rw [List.mem_singleton.mp hresponse]
        exact encodable_message.mpr ((valid_toMessage hstored hn.1 hn.2).mpr
          (h.messages _ hentry stored hstored))
      · refine .quiet_error (m := handleGetMessage ⟨true, true⟩ callsign ⟨peer, n⟩) rfl
          .getMessage .notFound "message not found" ?_ (.ofList rfl) (by decide)
        have hnone := (getConversationMessage_eq_none h.sound.messages
          (validateCallsign_encodable hcallsign)
          (validateCallsign_encodable hpeer) hn.1 hn.2).mpr (by omega)
        rw [handleGetMessage, if_neg (by simp), withCallsign_ok hcallsign]
        simp only [hpeer]
        rw [run_get_bind, hnone]
        rfl
    · obtain ⟨e, he, hcaught⟩ := exists_invalidField hpeer "peer"
      refine hunauthorized ?_
      rw [handleGetMessage, if_neg (by simp), withCallsign_ok hcallsign]
      simp only [he, if_pos hcaught]
      rfl
  · refine hunauthorized ?_
    rw [handleGetMessage, if_neg (by simp), withCallsign_refused hvalid]
    rfl

/-- Every request is answered. -/
theorem Tables.Servable.answered (h : t.Servable) (hcapacity : t.HasCapacity)
    (hclock : 0 ≤ clock ∧ clock ≤ maxSqliteInteger) (hrequest : decodeFrame frame = .ok request) :
    t.Answered clock callsign request := by
  cases request with
  | sendMessage value => exact h.answered_sendMessage hcapacity hclock hrequest
  | getNewMessages value => exact h.answered_getNewMessages hrequest
  | getNewBulletins value => exact h.answered_getNewBulletins hrequest
  | getBulletin value => exact h.answered_getBulletin hrequest
  | getMessage value => exact h.answered_getMessage hrequest
  | getCapabilities =>
    refine ⟨_, _, _, rfl, fun response hresponse => ?_⟩
    rw [List.mem_singleton.mp hresponse]
    exact ⟨_, rfl⟩
  | _ => exact .error _ _ _ rfl (.ofList rfl) (by decide)

end Requests

/-! ### Every frame -/

/-- The shape of what is answered to a frame. -/
def WellShaped (frame : Bytes) (responses : List ProtocolObject) : Prop :=
  (∃ error, responses = [.error error]) ∨
    ∃ request, decodeFrame frame = .ok request ∧ Answers request responses

/-- A frame that is decoded has a header. -/
theorem length_of_decodeFrame {frame : Bytes} {request : ProtocolObject}
    (h : decodeFrame frame = .ok request) : 4 ≤ frame.length := by
  by_cases hselect : isGetMessageFrame frame = true
  · rw [decodeFrame, if_pos hselect] at h
    obtain ⟨_, hshort, -⟩ := Py.bind_eq_ok.mp h
    rw [raiseIf_eq_ok, headerSize] at hshort
    omega
  · rw [decodeFrame, if_neg hselect] at h
    obtain ⟨_, hheader, -⟩ := Py.bind_eq_ok.mp h
    obtain ⟨_, hshort, -⟩ := Py.bind_eq_ok.mp hheader
    rw [raiseIf_eq_ok, headerSize] at hshort
    omega

/-- The error about a frame that is not decoded: none when the frame has no header. -/
theorem decodeErrorResponse_cases (frame : Bytes) {e : PyError} (h : Refusal e) :
    (frame.length < 4 ∧ decodeErrorResponse frame e = none) ∨
    (4 ≤ frame.length ∧ ∃ error, decodeErrorResponse frame e = some error ∧
      Encodable (.error error)) := by
  have hvalid : ValidText 0 maxErrorDetailLength ((str e.text).take 64) := h.ascii.validText 64
  rw [decodeErrorResponse]
  rcases Nat.lt_or_ge frame.length 4 with hshort | hlong
  · exact .inl ⟨hshort, if_pos hshort⟩
  · refine .inr ⟨hlong, ?_⟩
    rw [if_neg (Nat.not_lt.mpr hlong)]
    dsimp only
    split
    · exact ⟨_, rfl, encodable_error.mpr hvalid⟩
    · split
      · exact ⟨_, rfl, encodable_error.mpr hvalid⟩
      · split
        · exact ⟨_, rfl, encodable_error.mpr hvalid⟩
        · split
          · exact ⟨_, rfl, encodable_error.mpr hvalid⟩
          · exact ⟨_, rfl, encodable_error.mpr hvalid⟩

section Node

variable {ω : Type} (listeners : List (Listener ω)) (clock : ℤ) (callsign : Str) (node : Node ω)

/-- A frame that is not decoded changes nothing. -/
theorem Node.handleFrame_undecoded {frame : Bytes} {e : PyError}
    (he : decodeFrame frame = .error e) :
    (frame.length < 4 ∧
      (Node.handleFrame listeners clock callsign frame).run node = (.ok [], node)) ∨
    (4 ≤ frame.length ∧ ∃ error data, encodeFrame (.error error) false = .ok data ∧
      (Node.handleFrame listeners clock callsign frame).run node = (.ok [data], node)) := by
  have hrefusal := decodeFrame_raisesRefusal frame e he
  rw [Node.handleFrame, OpenQSP.handleFrame, he]
  dsimp only
  rw [if_pos hrefusal.caught]
  rcases decodeErrorResponse_cases frame hrefusal with
    ⟨hshort, hnone⟩ | ⟨hlong, error, hsome, data, hdata⟩
  · rw [hnone]
    exact .inl ⟨hshort, rfl⟩
  · rw [hsome]
    refine .inr ⟨hlong, error, data, hdata, ?_⟩
    dsimp only
    rw [hdata]
    rfl

/-- An answer that can be encoded is sent. -/
theorem Node.handleFrame_decoded {frame : Bytes} {request : ProtocolObject}
    (hrequest : decodeFrame frame = .ok request) {responses : List ProtocolObject}
    {events : List Message} {t' : Tables}
    (hrun : (OpenQSP.dispatch ⟨true, true⟩ clock callsign request).run node.tables =
      (.ok (responses, events), t')) (hall : ∀ response ∈ responses, Encodable response) :
    ∃ frames, List.Forall₂ (fun response data => encodeFrame response false = .ok data) responses
      frames ∧
      (Node.handleFrame listeners clock callsign frame).run node = (.ok frames,
        events.foldl (fun node event => Node.publish 0 listeners event node)
          { node with tables := t' }) := by
  obtain ⟨frames, hframes, hmapM⟩ := Py.exists_mapM hall
  have hdispatch : (Node.dispatch listeners clock callsign request).run node = _ :=
    Node.run_dispatch request node
  rw [hrun] at hdispatch
  refine ⟨frames, hframes, ?_⟩
  rw [Node.handleFrame, OpenQSP.handleFrame, hrequest]
  dsimp only
  rw [run_bind_of_ok hdispatch, run_ofExcept, hmapM]

/-- **Every frame is answered.** While only `send_message` stores messages, and the bulletins that
are stored keep the rules of the encoder, `handle_frame` raises nothing, whatever the callsign and
the frame are. It returns no frame exactly when the frame has no header; otherwise the frames it
returns are decoded as one `ERROR`, or as an answer with the shape of the request. An `ERROR` means
that nothing has changed and that no listener was called. -/
theorem handleFrame_answersEverything (calls : List ServedCall) (hcalls : ∀ call ∈ calls, call.Fits)
    (hcapacity : (servedState calls).HasCapacity) (hclock : 0 ≤ clock ∧ clock ≤ maxSqliteInteger)
    (hnode : node.tables = servedState calls) (frame : Bytes) :
    ∃ frames node', (Node.handleFrame listeners clock callsign frame).run node =
      (.ok frames, node') ∧
      (frames = [] ↔ frame.length < 4) ∧
      (frames = [] → node' = node) ∧
      (frames ≠ [] → ∃ responses, frames.map decodeFrame = responses.map .ok ∧
        WellShaped frame responses ∧ ((∃ error, responses = [.error error]) → node' = node)) := by
  have h : node.tables.Servable := hnode ▸ servable_servedState hcalls
  rw [← hnode] at hcapacity
  rcases hdecode : decodeFrame frame with e | request
  · rcases Node.handleFrame_undecoded listeners clock callsign node hdecode with
      ⟨hshort, hrun⟩ | ⟨hlong, error, data, hdata, hrun⟩
    · exact ⟨[], node, hrun, iff_of_true rfl hshort, fun _ => rfl, fun hne => absurd rfl hne⟩
    · refine ⟨[data], node, hrun, iff_of_false (List.cons_ne_nil _ _) (Nat.not_lt.mpr hlong),
        fun _ => rfl, fun _ => ⟨[.error error], ?_, .inl ⟨error, rfl⟩, fun _ => rfl⟩⟩
      exact map_decodeFrame (.cons hdata .nil)
  · obtain ⟨responses, events, t', hrun, hall⟩ := h.answered hcapacity hclock hdecode
    obtain ⟨frames, hframes, hhandle⟩ := Node.handleFrame_decoded listeners clock callsign node
      hdecode hrun hall
    have hanswers := (dispatch_cases hrun).1
    have hne : frames ≠ [] := by
      rintro rfl
      exact hanswers.ne_nil (List.forall₂_nil_right_iff.mp hframes)
    have hlen := length_of_decodeFrame hdecode
    refine ⟨frames, _, hhandle, iff_of_false hne (Nat.not_lt.mpr hlen), fun hnil => absurd hnil hne,
      fun _ => ⟨responses, map_decodeFrame hframes, .inr ⟨request, hdecode, hanswers⟩, ?_⟩⟩
    rintro ⟨error, rfl⟩
    obtain ⟨rfl, rfl⟩ := dispatch_error h.sound.messages hrun
    rfl

/-- A mailbox with one message. -/
def oneMessage : List ServedCall :=
  [.send ⟨str "EA1ABC", str "K1XYZ", str "73", 1700000000, none, [], 1700000000⟩]

theorem handleFrame_answersEverything_oneMessage :
    (servedState oneMessage).HasCapacity ∧
    ∃ frames node', (Node.handleFrame [] 1700000000 (str "K1XYZ") [1, 2, 0, 5, 0, 0, 0, 0, 20]).run
        (⟨servedState oneMessage, (), []⟩ : Node Unit) = (.ok frames, node') ∧ frames ≠ [] := by
  have hcapacity : (servedState oneMessage).HasCapacity := by
    rw [HasCapacity]
    decide +kernel
  obtain ⟨frames, node', hrun, hempty, -⟩ := handleFrame_answersEverything [] 1700000000
    (str "K1XYZ") ⟨servedState oneMessage, (), []⟩ oneMessage
    (fun call hcall => by rw [List.mem_singleton.mp hcall]; trivial) hcapacity (by decide) rfl
    [1, 2, 0, 5, 0, 0, 0, 0, 20]
  exact ⟨hcapacity, frames, node', hrun, fun hnil => absurd (hempty.mp hnil) (by decide)⟩

end Node

end OpenQSP
