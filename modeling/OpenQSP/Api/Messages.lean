import OpenQSP.Api.Access
import OpenQSP.Api.Identifiers
import OpenQSP.Server.DeliveryStates
import OpenQSP.Storage.Counters
import OpenQSP.Storage.Summaries

/-!
# Messages over the Internet API

What a run of the API does to the messages. A message comes into the tables by a call of
`send_message`, be it of a request or of another transport, and stays. The author of a request to
send is the callsign that it is served for.

## Main definitions

* `Stored` — the invariant of the tables
* `Extends` — what calls of `send_message` add
* `sends` — the calls that a step makes

## Main results

* `step_stored`, `serverAfter_stored` — what a step does to the messages, and what a run keeps
* **`messages_attributed`** — who has sent a message
-/

namespace OpenQSP

/-- The row is a message of the call, which passed the validation. -/
structure SendCall.Writes (call : SendCall) (e : (Str × ℕ) × MessageRow) : Prop where
  valid : call.Valid
  author : e.2.author = call.author
  recipient : e.1.1 = call.recipient
  body : encodeUtf8 call.body = some e.2.body

open Session

namespace Api

/-! ### The tables -/

/-- The tables of a run. -/
structure Stored (t : Tables) : Prop where
  consistent : t.Consistent
  api_le : t.apiMessageSequence ≤ maxSqliteInteger
  /-- A key belongs to the author of its message. -/
  owned : ∀ key ∈ t.apiIdempotency.entries, ∀ e ∈ t.messages.entries,
    e.1 = (key.2.recipient, key.2.mailboxSequence) → e.2.author = key.1.1

theorem stored_fresh : Stored Tables.fresh where
  consistent := Tables.consistent_fresh
  api_le := Nat.zero_le _
  owned _ h := by cases h

theorem Stored.of_sameMessages {t t' : Tables} (h : Stored t) (hsame : SameMessages t t') :
    Stored t' where
  consistent := h.consistent.of_sameMessages hsame
  api_le := by
    rw [hsame.2.1]
    exact h.api_le
  owned := by
    rw [hsame.2.2.1, hsame.2.2.2]
    exact h.owned

/-- What calls of `send_message` do to the messages. -/
structure Extends (t : Tables) (calls : List SendCall) (t' : Tables) : Prop where
  kept : RowsKept t t'
  new : ∀ e ∈ t'.messages.entries, e ∈ t.messages.entries ∨ ∃ call ∈ calls, call.Writes e

theorem Extends.of_sameMessages {t t' : Tables} (h : SameMessages t t') (calls : List SendCall) :
    Extends t calls t' where
  kept := by
    rw [RowsKept, h.2.2.1, h.2.2.2]
    exact RowsKept.refl t
  new e he := .inl (h.2.2.1 ▸ he)

theorem Extends.refl (t : Tables) (calls : List SendCall) : Extends t calls t :=
  of_sameMessages (SameMessages.refl t) calls

theorem Extends.trans {t t' t'' : Tables} {calls later : List SendCall} (h : Extends t calls t')
    (h' : Extends t' later t'') : Extends t (calls ++ later) t'' where
  kept := h.kept.trans h'.kept
  new e he := by
    rcases h'.new e he with he | ⟨call, hcall, hwrites⟩
    · refine (h.new e he).imp_right ?_
      rintro ⟨call, hcall, hwrites⟩
      exact ⟨call, List.mem_append_left _ hcall, hwrites⟩
    · exact .inr ⟨call, List.mem_append_right _ hcall, hwrites⟩

section Accepting

variable {t t' : Tables} {createdAt : ℤ} {author recipient body requestHash : Str}

/-- An accepted message is the last row. -/
theorem exists_row_of_accepts {message : StoredMessage}
    (h : Accepts t createdAt author recipient body t' message) :
    ∃ e, t'.messages.entries = t.messages.entries ++ [e] ∧ storedMessage e = .ok message ∧
      e.1 = (recipient, message.sequence) ∧ e.2.author = author ∧
      encodeUtf8 body = some e.2.body := by
  obtain ⟨data, hdata, hentries, hstored⟩ := h.messages_eq
  obtain ⟨-, -, hsequence, -, -, -⟩ := storedMessage_eq_ok hstored
  exact ⟨_, hentries, hstored, Prod.ext rfl hsequence.symm, rfl, hdata⟩

/-- A new message does not belong to an old key. -/
theorem Stored.owned_of_accepts (h : Stored t) {message : StoredMessage}
    (haccepts : Accepts t createdAt author recipient body t' message) :
    ∀ key ∈ t.apiIdempotency.entries, ∀ e ∈ t'.messages.entries,
      e.1 = (key.2.recipient, key.2.mailboxSequence) → e.2.author = key.1.1 := by
  obtain ⟨row, hentries, -, hrow, -, -⟩ := exists_row_of_accepts haccepts
  intro key hkey e he href
  rw [hentries] at he
  rcases List.mem_append.mp he with he | he
  · exact h.owned key hkey e he href
  · obtain rfl := List.mem_singleton.mp he
    have hmem := h.consistent.references key hkey
    rw [← href, hrow, congrArg StoredMessage.sequence haccepts.message_eq] at hmem
    exact absurd hmem haccepts.key_new

/-- What a call that stores a message leaves behind, and returns. -/
theorem Stored.keyed (h : Stored t) {idempotencyKey : Option Str} {result : StoredMessage × Bool}
    (houtcome : KeyedOutcome t createdAt author recipient body requestHash idempotencyKey result
      t') :
    Stored t' ∧ RowsKept t t' ∧
      (∀ e ∈ t'.messages.entries, e ∈ t.messages.entries ∨
        (e.2.author = author ∧ e.1.1 = recipient ∧ encodeUtf8 body = some e.2.body)) ∧
      ∃ e ∈ t'.messages.entries, storedMessage e = .ok result.1 ∧ e.2.author = author := by
  obtain ⟨hconsistent, hkept⟩ := houtcome.preserves h.consistent
  have hle := houtcome.api_le h.api_le
  cases houtcome with
  | unkeyed accepts =>
    obtain ⟨row, hentries, hstored, hrow, hauthor, hbody⟩ := exists_row_of_accepts accepts
    have howned := h.owned_of_accepts accepts
    rw [← accepts.apiIdempotency_eq] at howned
    refine ⟨⟨hconsistent, hle, howned⟩, hkept, fun e he => ?_, row, ?_, hstored, hauthor⟩
    · rw [hentries] at he
      rcases List.mem_append.mp he with he | he
      · exact .inl he
      · obtain rfl := List.mem_singleton.mp he
        exact .inr ⟨hauthor, congrArg Prod.fst hrow, hbody⟩
    · simp [hentries]
  | @created key message t₁ t' new accepts records =>
    obtain ⟨row, hentries, hstored, hrow, hauthor, hbody⟩ := exists_row_of_accepts accepts
    obtain ⟨-, -, -, rfl⟩ := records
    have hmem : row ∈ t₁.messages.entries := by simp [hentries]
    refine ⟨⟨hconsistent, hle, fun entry hentry e he href => ?_⟩, hkept, fun e he => ?_, row, hmem,
      hstored, hauthor⟩
    · rcases OrderedDict.mem_entries_set.mp hentry with rfl | ⟨hold, -⟩
      · obtain rfl := OrderedDict.eq_of_fst_eq he hmem (href.trans hrow.symm)
        exact hauthor
      · exact h.owned_of_accepts accepts entry (accepts.apiIdempotency_eq ▸ hold) e he href
    · have he : e ∈ t₁.messages.entries := he
      rw [hentries] at he
      rcases List.mem_append.mp he with he | he
      · exact .inl he
      · obtain rfl := List.mem_singleton.mp he
        exact .inr ⟨hauthor, congrArg Prod.fst hrow, hbody⟩
  | replayed known hash mem ref stored =>
    refine ⟨h, hkept, fun e he => .inl he, _, mem, stored, ?_⟩
    exact h.owned _ (OrderedDict.get?_eq_some_iff.mp known) _ mem ref

end Accepting

section Steps

variable {ω τ : Type} {api : APISetup ω τ} {outside : ω}

/-- What is not valid is not accepted. -/
theorem valid_of_accept {call : SendCall} {t : Tables} {result : MessageAcceptance × Option Message}
    (h : (call.accept.run t).1 = .ok result) : call.Valid := by
  rw [SendCall.accept, acceptMessage] at h
  rcases hvalid : validateSend call.author call.recipient call.body call.createdAt with e | _
  · rw [hvalid] at h
    cases h
  · exact hvalid

/-- One call of `send_message`: the message that it returns is of its author. -/
theorem sendMessage_stored (listeners : List (Listener ω)) (call : SendCall) {node : Node ω}
    (h : Stored node.tables) :
    Stored ((sendMessage listeners call).run node).2.tables ∧
      Extends node.tables [call] ((sendMessage listeners call).run node).2.tables ∧
      ∀ acceptance, ((sendMessage listeners call).run node).1 = .ok acceptance →
        ∃ e ∈ ((sendMessage listeners call).run node).2.tables.messages.entries,
          storedMessage e = .ok acceptance.message ∧ e.2.author = call.author := by
  obtain ⟨herr, hok⟩ := call.accept_spec h.consistent
  rw [sendMessage_run]
  rcases hrun : call.accept.run node.tables with ⟨e | ⟨acceptance, event⟩, t⟩
  · rw [hrun] at herr
    obtain rfl : t = node.tables := herr e rfl
    refine ⟨h, Extends.refl _ _, ?_⟩
    rintro acceptance ⟨⟩
  · have hvalid : call.Valid := valid_of_accept (congrArg Prod.fst hrun)
    rw [hrun] at hok
    obtain ⟨hstored, hkept, hnew, hresult⟩ := h.keyed (hok _ rfl).1
    have hextends : Extends node.tables [call] t := by
      refine ⟨hkept, fun e he => (hnew e he).imp_right ?_⟩
      rintro ⟨hauthor, hrecipient, hbody⟩
      exact ⟨call, List.mem_singleton_self _, hvalid, hauthor, hrecipient, hbody⟩
    rcases event with _ | event
    · refine ⟨hstored, hextends, ?_⟩
      rintro _ ⟨⟩
      exact hresult
    · obtain ⟨hsame, -⟩ := Node.publish_spec listeners event 0 { node with tables := t }
      refine ⟨hstored.of_sameMessages hsame, ?_, ?_⟩
      · have htrans := hextends.trans (Extends.of_sameMessages hsame [])
        rwa [List.append_nil] at htrans
      · rintro _ ⟨⟩
        rw [hsame.2.2.1]
        exact hresult

/-- A sequence of calls of other transports. -/
theorem sendAll_stored (listeners : List (Listener ω)) (calls : List SendCall) {node : Node ω}
    (h : Stored node.tables) :
    Stored (calls.foldl (fun node call => ((sendMessage listeners call).run node).2) node).tables ∧
      Extends node.tables calls
        (calls.foldl (fun node call => ((sendMessage listeners call).run node).2) node).tables := by
  induction calls generalizing node with
  | nil => exact ⟨h, Extends.refl _ _⟩
  | cons call calls ih =>
    obtain ⟨hstored, hextends, -⟩ := sendMessage_stored listeners call h
    obtain ⟨hstored', hextends'⟩ := ih hstored
    exact ⟨hstored', hextends.trans hextends'⟩

/-- Moving a read cursor changes no other table. -/
theorem advanceConversationRead_toTables (owner peer : Str) (faults : Faults) (d : Database) :
    ((Database.advanceConversationRead owner peer faults).run d).2.toTables = d.toTables := by
  obtain ⟨herr, hok⟩ : (∀ e, ((Database.advanceConversationRead owner peer faults).run d).1 =
      .error e → ((Database.advanceConversationRead owner peer faults).run d).2 = d) ∧
      ∀ result, ((Database.advanceConversationRead owner peer faults).run d).1 = .ok result →
        ((Database.advanceConversationRead owner peer faults).run d).2.toTables = d.toTables := by
    refine run_closing_atomically (Q := fun _ (d' : Database) => d'.toTables = d.toTables)
      (Commits.step fun row d₁ hrow => ?_) faults
    obtain ⟨-, rfl⟩ := Database.select_eq_ok.mp hrow
    refine Commits.step fun sequence d₂ hsequence => ?_
    obtain ⟨-, rfl⟩ := Database.select_eq_ok.mp hsequence
    refine Commits.step fun _ d₃ hupsert => ?_
    obtain ⟨_, -, hupsert⟩ := Py.bind_eq_ok.mp hupsert
    obtain ⟨_, -, hupsert⟩ := Py.bind_eq_ok.mp hupsert
    obtain ⟨_, -, hupsert⟩ := Py.bind_eq_ok.mp hupsert
    obtain ⟨-, rfl⟩ := Prod.mk.inj (Except.ok.inj hupsert)
    refine Commits.step fun row d₄ hrow => ?_
    obtain ⟨-, rfl⟩ := Database.select_eq_ok.mp hrow
    refine Commits.check fun persisted hpersisted => Commits.commit fun d₅ hd₅ => ⟨_, rfl, ?_⟩
    rw [hd₅]
  rcases hrun : ((Database.advanceConversationRead owner peer faults).run d).1 with e | result
  · rw [herr e hrun]
  · exact hok result hrun

/-- The calls of `send_message` that a step makes. -/
def sends (api : APISetup ω τ) : Input τ → List SendCall
  | .send call => [call]
  | .request call =>
    match api.user call.credentials call.now, call.request with
    | .ok callsign, .send recipient body idempotencyKey =>
      (api.sendCall callsign recipient body idempotencyKey call.now).toOption.toList
    | .ok _, .sync _ meanwhile => meanwhile
    | _, _ => []
  | _ => []

theorem serve_stored {callsign : Str} {call : APICall τ} {s : APINode ω τ}
    (huser : api.user call.credentials call.now = .ok callsign) (h : Stored s.node.tables) :
    Stored (api.serve callsign call s).2.node.tables ∧
      Extends s.node.tables (sends api (.request call))
        (api.serve callsign call s).2.node.tables := by
  rw [APISetup.serve]
  split
  · exact ⟨h, Extends.refl _ _⟩
  · next recipient body key hrequest =>
    simp only [sends, huser, hrequest, APISetup.send]
    rcases api.sendCall callsign recipient body key call.now with e | sendCall
    · exact ⟨h, Extends.refl _ _⟩
    · obtain ⟨hstored, hextends, -⟩ := sendMessage_stored api.listeners sendCall h
      exact ⟨hstored, hextends⟩
  · exact ⟨h, Extends.refl _ _⟩
  · exact ⟨h, Extends.refl _ _⟩
  · exact ⟨h, Extends.refl _ _⟩
  · rw [APISetup.markRead]
    split
    · exact ⟨h, Extends.refl _ _⟩
    · next normalized hnormalized =>
      have hsame : SameMessages s.node.tables ((Database.advanceConversationRead callsign
          normalized []).run s.database).2.toTables := by
        rw [advanceConversationRead_toTables]
        exact SameMessages.refl _
      exact ⟨h.of_sameMessages hsame, Extends.of_sameMessages hsame _⟩
  · next cursor meanwhile hrequest =>
    simp only [sends, huser, hrequest]
    rw [sync_snd]
    exact sendAll_stored api.listeners meanwhile h

/-- A step keeps what is stored, and adds what it sends. -/
theorem step_stored {s : APINode ω τ} (h : Stored s.node.tables) (input : Input τ) :
    Stored (step api s input).node.tables ∧
      Extends s.node.tables (sends api input) (step api s input).node.tables := by
  cases input with
  | login callsign password now => exact ⟨h, Extends.refl _ _⟩
  | request call =>
    show Stored (api.respond call s).2.node.tables ∧
      Extends _ _ (api.respond call s).2.node.tables
    rcases respond_cases api call s with ⟨e, -, heq⟩ | ⟨callsign, presence, huser, hnode⟩
    · rw [heq]
      exact ⟨h, Extends.refl _ _⟩
    · rw [hnode]
      exact serve_stored huser h
  | send call =>
    obtain ⟨hstored, hextends, -⟩ := sendMessage_stored api.listeners call h
    exact ⟨hstored, hextends⟩
  | database change keeps =>
    exact ⟨h.of_sameMessages (keeps _), Extends.of_sameMessages (keeps _) _⟩
  | account callsign password salt now => exact ⟨h, Extends.refl _ _⟩
  | socket action => exact ⟨h, Extends.refl _ _⟩

theorem serverAfter_stored (inputs : List (Input τ)) :
    Stored (serverAfter api outside inputs).node.tables := by
  induction inputs using List.reverseRecOn with
  | nil => exact stored_fresh
  | append_singleton inputs input ih =>
    rw [serverAfter_concat]
    exact (step_stored ih input).1

variable (api outside) in
theorem serverAfter_kept (inputs later : List (Input τ)) :
    RowsKept (serverAfter api outside inputs).node.tables
      (serverAfter api outside (inputs ++ later)).node.tables := by
  induction later using List.reverseRecOn with
  | nil =>
    rw [List.append_nil]
    exact RowsKept.refl _
  | append_singleton later input ih =>
    rw [← List.append_assoc, serverAfter_concat]
    exact ih.trans (step_stored (serverAfter_stored _) input).2.kept

/-- Every message was sent. -/
theorem exists_sends (inputs : List (Input τ)) :
    ∀ e ∈ (serverAfter api outside inputs).node.tables.messages.entries,
      ∃ earlier input later, inputs = earlier ++ input :: later ∧
        ∃ call ∈ sends api input, call.Writes e := by
  induction inputs using List.reverseRecOn with
  | nil =>
    intro e he
    cases he
  | append_singleton inputs input ih =>
    intro e he
    rw [serverAfter_concat] at he
    rcases (step_stored (serverAfter_stored inputs) input).2.new e he with hold | hnew
    · obtain ⟨earlier, input', later, rfl, hcall⟩ := ih e hold
      exact ⟨earlier, input', later ++ [input], by simp, hcall⟩
    · exact ⟨inputs, input, [], rfl, hnew⟩

/-- The names of a stored message are callsigns. -/
theorem serverAfter_names (inputs : List (Input τ)) :
    ∀ e ∈ (serverAfter api outside inputs).node.tables.messages.entries,
      ValidCallsign e.2.author ∧ ValidCallsign e.1.1 := by
  intro e he
  obtain ⟨-, -, -, -, call, -, hwrites⟩ := exists_sends inputs e he
  obtain ⟨author, hauthor, hvalid⟩ := Py.bind_eq_ok.mp hwrites.valid
  obtain ⟨recipient, hrecipient, -⟩ := Py.bind_eq_ok.mp hvalid
  obtain rfl := validateCallsign_eq hauthor
  obtain rfl := validateCallsign_eq hrecipient
  rw [hwrites.author, hwrites.recipient]
  exact ⟨(validateCallsign_iff "author").mp hauthor,
    (validateCallsign_iff "recipient").mp hrecipient⟩

/-! ### Who sends -/

theorem sendCall_eq_ok {callsign recipient body idempotencyKey : Str} {now : ℤ} {call : SendCall} :
    api.sendCall callsign recipient body idempotencyKey now = .ok call ↔
      (1 ≤ idempotencyKey.length ∧ idempotencyKey.length ≤ 128) ∧
      ∃ normalized, api.normalizeCallsign recipient = .ok normalized ∧
        call = ⟨callsign, normalized, body, now, some idempotencyKey,
          api.digest normalized body, now⟩ := by
  rw [APISetup.sendCall]
  rcases api.normalizeCallsign recipient with e | normalized
  · refine ⟨fun h => ?_, ?_⟩
    · dsimp only at h
      split at h
      · cases h
      · cases h
    · rintro ⟨-, normalized, ⟨⟩, -⟩
  · dsimp only
    by_cases hkey : 1 ≤ idempotencyKey.length ∧ idempotencyKey.length ≤ 128
    · rw [if_neg (not_not.mpr hkey)]
      constructor
      · intro h
        exact ⟨hkey, normalized, rfl, (Except.ok.inj h).symm⟩
      · rintro ⟨-, _, ⟨⟩, rfl⟩
        rfl
    · rw [if_pos hkey]
      constructor
      · rintro ⟨⟩
      · rintro ⟨hkey', -⟩
        exact absurd hkey' hkey

/-- The calls of `send_message` in which the API has no part. -/
def Input.elsewhere : Input τ → List SendCall
  | .send call => [call]
  | .request call =>
    match call.request with
    | .sync _ meanwhile => meanwhile
    | _ => []
  | _ => []

/-- A call of `send_message` is one of another transport, or that of a request to send. -/
theorem mem_sends {input : Input τ} {sent : SendCall} (h : sent ∈ sends api input) :
    sent ∈ input.elsewhere ∨ ∃ call callsign recipient body idempotencyKey,
      input = .request call ∧ call.request = .send recipient body idempotencyKey ∧
      api.user call.credentials call.now = .ok callsign ∧
      api.sendCall callsign recipient body idempotencyKey call.now = .ok sent := by
  cases input with
  | login callsign password now => cases h
  | request call =>
    rw [sends] at h
    split at h
    · next callsign recipient body key huser hrequest =>
      refine .inr ⟨call, callsign, recipient, body, key, rfl, hrequest, huser, ?_⟩
      rcases hcall : api.sendCall callsign recipient body key call.now with e | sendCall
      · rw [hcall] at h
        cases h
      · rw [hcall] at h
        exact congrArg Except.ok (List.mem_singleton.mp h).symm
    · next cursor meanwhile huser hrequest =>
      left
      rw [Input.elsewhere, hrequest]
      exact h
    · cases h
  | send call => exact .inl h
  | database change keeps => cases h
  | account callsign password salt now => cases h
  | socket action => cases h

/-- **Nobody sends in another's name.** In every run in which nobody presents a forged access token:
every message that is stored was sent by another transport, with this author, or by a request to
send that carried an access token of a login as its author, not longer before than tokens live. -/
theorem messages_attributed {inputs : List (Input τ)} (hgenuine : Genuine api outside inputs)
    {e : (Str × ℕ) × MessageRow}
    (he : e ∈ (serverAfter api outside inputs).node.tables.messages.entries) :
    (∃ input ∈ inputs, ∃ call ∈ input.elsewhere, call.Writes e) ∨
    ∃ earlier call later recipient body idempotencyKey issued,
      inputs = earlier ++ .request call :: later ∧
      call.request = .send recipient body idempotencyKey ∧
      api.normalizeCallsign recipient = .ok e.1.1 ∧ encodeUtf8 body = some e.2.body ∧
      LoggedIn api outside earlier e.2.author issued ∧
      call.credentials = some (api.access e.2.author issued) ∧
      call.now ≤ issued + api.lifetime := by
  obtain ⟨earlier, input, later, hinputs, sent, hsent, hwrites⟩ := exists_sends inputs e he
  rcases mem_sends hsent with hother | ⟨call, callsign, recipient, body, key, rfl, hrequest, huser,
    hcall⟩
  · left
    refine ⟨input, ?_, sent, hother, hwrites⟩
    rw [hinputs]
    exact List.mem_append_right _ List.mem_cons_self
  · right
    obtain ⟨-, normalized, hrecipient, rfl⟩ := sendCall_eq_ok.mp hcall
    obtain ⟨issued, hlogin, hcredentials, hnow⟩ := loggedIn_of_user hgenuine hinputs huser
    have hnormalized : e.1.1 = normalized := hwrites.recipient
    have hauthor : e.2.author = callsign := hwrites.author
    rw [← hnormalized] at hrecipient
    rw [← hauthor] at hlogin hcredentials
    exact ⟨earlier, call, later, recipient, body, key, issued, hinputs, hrequest, hrecipient,
      hwrites.body, hlogin, hcredentials, hnow⟩

end Steps

theorem messages_attributed_sampleSend : ∃ (earlier : List (Input Payload))
    (call : APICall Payload) (later : List (Input Payload)) (issued : ℤ),
    sampleLogin ++ [.request sampleSend] = earlier ++ .request call :: later ∧
      LoggedIn plainAPI () earlier (str "EA1ABC") issued ∧
      call.credentials = some (plainAPI.access (str "EA1ABC") issued) := by
  rcases messages_attributed genuine_sampleSend
    (e := ((str "K1XYZ", 1), ⟨1, 1001, 1001, str "EA1ABC", [55, 51]⟩)) (by decide +kernel) with
    ⟨input, hinput, call, hcall, -⟩ |
    ⟨earlier, call, later, recipient, body, key, issued, hinputs, -, -, -, hlogin, hcredentials, -⟩
  · simp only [sampleLogin, List.cons_append, List.nil_append, List.mem_cons, List.not_mem_nil,
      or_false] at hinput
    rcases hinput with rfl | rfl | rfl
    · cases hcall
    · cases hcall
    · cases hcall
  · exact ⟨earlier, call, later, issued, hinputs, hlogin, hcredentials⟩

end Api

end OpenQSP
