import OpenQSP.Api.Privacy

/-!
# Read receipts

The author of a message is shown that it was read. In every run, a message is shown as read exactly
if its recipient marked the conversation with its author as read after the message had been stored.
Nobody else can do this, and nothing that is stored later is read already.

## Main definitions

* `Marks` — an input marks a conversation as read
* `Marked` — the recipient of a message has marked its conversation since it was stored

## Main results

* `step_reads`, `step_cursor` — what a step does to the cursors
* `serverAfter_sound` — no cursor is ahead of its mailbox
* `cursor_spec` — the messages that a cursor is not behind
* **`receipts_honest`**
-/

namespace OpenQSP

open Tables

namespace Api

section Steps

variable {ω τ : Type} {api : APISetup ω τ} {outside : ω} {owner peer : Str}

/-- The owner marks his conversation with the peer as read. -/
def Marks (api : APISetup ω τ) (owner peer : Str) (input : Input τ) : Prop :=
  ∃ call typed, input = .request call ∧ call.request = .markRead typed ∧
    api.normalizeCallsign typed = .ok peer ∧ api.user call.credentials call.now = .ok owner

/-- A request that marks no conversation leaves the cursors alone. -/
theorem serve_reads {callsign : Str} {call : APICall τ} {s : APINode ω τ}
    (h : ∀ typed peer, call.request = .markRead typed → api.normalizeCallsign typed ≠ .ok peer) :
    (api.serve callsign call s).2.conversationReads = s.conversationReads := by
  rw [APISetup.serve]
  split
  · rfl
  · next recipient body key hrequest =>
    obtain ⟨node, hnode⟩ := send_snd api callsign recipient body key call.now s
    rw [hnode]
  · rfl
  · rfl
  · rfl
  · next typed hrequest =>
    rw [APISetup.markRead]
    split
    · rfl
    · next peer hpeer => exact absurd hpeer (h typed peer hrequest)
  · rw [sync_snd]

theorem Marks.unique {owner' peer' : Str} {input : Input τ} (h : Marks api owner peer input)
    (h' : Marks api owner' peer' input) : owner' = owner ∧ peer' = peer := by
  obtain ⟨call, typed, rfl, hrequest, hpeer, huser⟩ := h
  obtain ⟨_, typed', ⟨⟩, hrequest', hpeer', huser'⟩ := h'
  obtain rfl := Request.markRead.inj (hrequest.symm.trans hrequest')
  exact ⟨Except.ok.inj (huser'.symm.trans huser), Except.ok.inj (hpeer'.symm.trans hpeer)⟩

/-- Only marking a conversation as read moves a cursor, that of this conversation, to the last
message of the peer. -/
theorem step_reads {s : APINode ω τ} (h : s.database.Sound) (input : Input τ) :
    (step api s input).conversationReads = s.conversationReads ∧ (∀ owner peer,
      (encodeUtf8 owner).isSome → (encodeUtf8 peer).isSome → ¬Marks api owner peer input) ∨
    ∃ owner peer, Marks api owner peer input ∧
      (step api s input).database = s.database.advanced owner peer := by
  cases input with
  | request call =>
    rcases huser : api.user call.credentials call.now with e | owner
    · left
      constructor
      · show (api.respond call s).2.conversationReads = _
        rw [APISetup.respond, huser]
      · rintro owner peer - - ⟨_, typed, ⟨⟩, -, -, huser'⟩
        cases huser.symm.trans huser'
    obtain ⟨presence, hnode, -⟩ := recordActivity_snd owner (api.serve owner call s)
    rw [← respond_of_user huser] at hnode
    by_cases hmark : ∃ typed peer, call.request = .markRead typed ∧
      api.normalizeCallsign typed = .ok peer
    · obtain ⟨typed, peer, hrequest, hpeer⟩ := hmark
      have hmarks : Marks api owner peer (.request call) :=
        ⟨call, typed, rfl, hrequest, hpeer, huser⟩
      have hdatabase : (step api s (.request call)).database =
          ((Database.advanceConversationRead owner peer []).run s.database).2 := by
        show (api.respond call s).2.database = _
        rw [hnode, withPresence_database, APISetup.serve, hrequest]
        show (api.markRead owner typed s).2.database = _
        rw [APISetup.markRead, hpeer]
        rfl
      obtain ⟨herr, hok⟩ := Database.advanceConversationRead_spec owner peer h []
      rcases hrun : ((Database.advanceConversationRead owner peer []).run s.database).1 with
        e | result
      · left
        refine ⟨congrArg Database.conversationReads (hdatabase.trans (herr e hrun)), ?_⟩
        intro owner' peer' howner hpeer' hmarks'
        obtain ⟨rfl, rfl⟩ := hmarks.unique hmarks'
        obtain ⟨result, hresult⟩ := Database.advanceConversationRead_ok h howner hpeer'
        cases hrun.symm.trans hresult
      · exact .inr ⟨owner, peer, hmarks, hdatabase.trans (hok result hrun).2⟩
    · left
      constructor
      · show (api.respond call s).2.conversationReads = _
        rw [hnode]
        exact serve_reads fun typed peer hrequest hpeer => hmark ⟨typed, peer, hrequest, hpeer⟩
      · rintro owner' peer - - ⟨_, typed, ⟨⟩, hrequest, hpeer, -⟩
        exact hmark ⟨typed, peer, hrequest, hpeer⟩
  | login callsign password now =>
    refine .inl ⟨rfl, ?_⟩
    rintro owner peer - - ⟨_, _, ⟨⟩, -⟩
  | send call =>
    refine .inl ⟨rfl, ?_⟩
    rintro owner peer - - ⟨_, _, ⟨⟩, -⟩
  | database change keeps =>
    refine .inl ⟨rfl, ?_⟩
    rintro owner peer - - ⟨_, _, ⟨⟩, -⟩
  | account callsign password salt now =>
    refine .inl ⟨rfl, ?_⟩
    rintro owner peer - - ⟨_, _, ⟨⟩, -⟩
  | socket action =>
    refine .inl ⟨rfl, ?_⟩
    rintro owner peer - - ⟨_, _, ⟨⟩, -⟩

variable (api) in
/-- What a step does to a cursor. -/
theorem step_cursor {s : APINode ω τ} (h : s.database.Sound) (input : Input τ)
    (howner : (encodeUtf8 owner).isSome) (hpeer : (encodeUtf8 peer).isSome) :
    (Marks api owner peer input ∧ (step api s input).database.cursor owner peer =
      max (s.database.cursor owner peer) (s.database.lastSequence owner peer)) ∨
    (¬Marks api owner peer input ∧
      (step api s input).database.cursor owner peer = s.database.cursor owner peer) := by
  rcases step_reads h input with ⟨hreads, hnot⟩ | ⟨owner', peer', hmarks, hdatabase⟩
  · refine .inr ⟨hnot owner peer howner hpeer, ?_⟩
    exact congrArg (fun reads : OrderedDict (Str × Str) ℕ => (reads.get? (owner, peer)).getD 0)
      hreads
  · rw [hdatabase]
    by_cases hq : (owner, peer) = (owner', peer')
    · obtain ⟨rfl, rfl⟩ := Prod.mk.inj hq
      exact .inl ⟨hmarks, Database.cursor_advanced⟩
    · right
      constructor
      · intro hmarks'
        obtain ⟨rfl, rfl⟩ := hmarks.unique hmarks'
        exact hq rfl
      · rw [Database.cursor, Database.get?_advanced, if_neg hq]
        rfl

/-- No cursor is ahead of its mailbox. -/
theorem serverAfter_sound (inputs : List (Input τ)) :
    (serverAfter api outside inputs).database.Sound := by
  induction inputs using List.reverseRecOn with
  | nil => exact ⟨stored_fresh.consistent.counted, fun _ _ _ hlast => by cases hlast⟩
  | append_singleton inputs input ih =>
    have hstored : Stored (serverAfter api outside inputs).node.tables := serverAfter_stored inputs
    obtain ⟨hstored', hextends⟩ := step_stored hstored input
    rw [serverAfter_concat]
    rcases step_reads ih input with ⟨hreads, -⟩ | ⟨owner, peer, -, hdatabase⟩
    · refine ⟨hstored'.consistent.counted, fun owner peer last hlast => ?_⟩
      have hlast' : (step api (serverAfter api outside inputs) input).conversationReads.get?
        (owner, peer) = some last := hlast
      rw [hreads] at hlast'
      have hle := ih.reads_le owner peer last hlast'
      exact hle.trans (hextends.kept.highest_le hstored.consistent hstored'.consistent owner)
    · rw [hdatabase]
      exact ih.next_advanced owner peer

/-- The recipient of a message has marked its conversation as read since it was stored. -/
def Marked (api : APISetup ω τ) (outside : ω) (inputs : List (Input τ))
    (e : (Str × ℕ) × MessageRow) : Prop :=
  ∃ earlier input later, inputs = earlier ++ input :: later ∧ Marks api e.1.1 e.2.author input ∧
    e ∈ (serverAfter api outside earlier).node.tables.messages.entries

theorem marked_concat {inputs : List (Input τ)} {input : Input τ} {e : (Str × ℕ) × MessageRow} :
    Marked api outside (inputs ++ [input]) e ↔ Marked api outside inputs e ∨
      (Marks api e.1.1 e.2.author input ∧
        e ∈ (serverAfter api outside inputs).node.tables.messages.entries) := by
  constructor
  · rintro ⟨earlier, input', later, hinputs, hmarks, he⟩
    rcases List.eq_nil_or_concat' later with rfl | ⟨later, last, rfl⟩
    · obtain ⟨rfl, hlast⟩ := List.append_inj' hinputs rfl
      obtain rfl := List.head_eq_of_cons_eq hlast
      exact .inr ⟨hmarks, he⟩
    · rw [← List.cons_append, ← List.append_assoc] at hinputs
      obtain ⟨hinputs, -⟩ := List.append_inj' hinputs rfl
      exact .inl ⟨earlier, input', later, hinputs, hmarks, he⟩
  · rintro (⟨earlier, input', later, rfl, hmarks, he⟩ | ⟨hmarks, he⟩)
    · exact ⟨earlier, input', later ++ [input], by simp, hmarks, he⟩
    · exact ⟨inputs, input, [], rfl, hmarks, he⟩

/-- What has been marked was stored. -/
theorem Marked.stored {inputs : List (Input τ)} {e : (Str × ℕ) × MessageRow}
    (h : Marked api outside inputs e) :
    e ∈ (serverAfter api outside inputs).node.tables.messages.entries := by
  obtain ⟨earlier, input, later, rfl, -, he⟩ := h
  exact (serverAfter_kept api outside earlier (input :: later)).1.subset he

/-- The messages that a cursor is not behind. -/
theorem cursor_spec (inputs : List (Input τ)) :
    ∀ e ∈ (serverAfter api outside inputs).node.tables.messages.entries,
      e.1.2 ≤ (serverAfter api outside inputs).database.cursor e.1.1 e.2.author ↔
        Marked api outside inputs e := by
  induction inputs using List.reverseRecOn with
  | nil =>
    intro e he
    cases he
  | append_singleton inputs input ih =>
    intro e he
    have hstored : Stored (serverAfter api outside inputs).node.tables := serverAfter_stored inputs
    have hsound : (serverAfter api outside inputs).database.Sound := serverAfter_sound inputs
    obtain ⟨hstored', hextends⟩ := step_stored hstored input
    rw [serverAfter_concat] at he ⊢
    have hcursor := step_cursor api hsound input (hstored'.consistent.recipients_encodable e he)
      (hstored'.consistent.authors_encodable e he)
    rw [marked_concat]
    by_cases hold : e ∈ (serverAfter api outside inputs).node.tables.messages.entries
    · rw [← ih e hold]
      have hlast := Database.le_lastSequence (d := (serverAfter api outside inputs).database)
        hold rfl rfl
      rcases hcursor with ⟨hmarks, hcursor⟩ | ⟨hnot, hcursor⟩
      · rw [hcursor]
        exact iff_of_true (hlast.trans (le_max_right _ _)) (.inr ⟨hmarks, hold⟩)
      · rw [hcursor, or_iff_left fun h => hnot h.1]
    · -- A new message is ahead of every cursor of its mailbox.
      have hlt := hextends.kept.highest_lt hstored.consistent hstored'.consistent he hold
      have hle := hsound.cursor_le e.1.1 e.2.author
      have hlast := (hsound.lastSequence_le e.1.1 e.2.author).1
      refine iff_of_false (not_le.mpr ?_) ?_
      · rcases hcursor with ⟨-, hcursor⟩ | ⟨-, hcursor⟩
        · rw [hcursor]
          exact (max_le hle hlast).trans_lt hlt
        · rw [hcursor]
          exact hle.trans_lt hlt
      · rintro (hmarked | ⟨-, hmem⟩)
        · exact hold hmarked.stored
        · exact hold hmem

/-- **Read receipts are honest.** In every run in which nobody presents a forged access token: a
stored message is shown as read exactly if its recipient has marked the conversation with its author
as read after it was stored, with a token of a login as the recipient. -/
theorem receipts_honest {inputs : List (Input τ)} (hgenuine : Genuine api outside inputs)
    {e : (Str × ℕ) × MessageRow}
    (he : e ∈ (serverAfter api outside inputs).node.tables.messages.entries) :
    (serverAfter api outside inputs).database.isRead e = true ↔
      ∃ earlier call later typed issued, inputs = earlier ++ .request call :: later ∧
        call.request = .markRead typed ∧ api.normalizeCallsign typed = .ok e.2.author ∧
        LoggedIn api outside earlier e.1.1 issued ∧
        call.credentials = some (api.access e.1.1 issued) ∧ call.now ≤ issued + api.lifetime ∧
        e ∈ (serverAfter api outside earlier).node.tables.messages.entries := by
  have hsound : (serverAfter api outside inputs).database.Sound := serverAfter_sound inputs
  rw [hsound.isRead_iff_le he, cursor_spec inputs e he]
  constructor
  · rintro ⟨earlier, _, later, hinputs, ⟨call, typed, rfl, hrequest, hauthor, huser⟩, hmem⟩
    obtain ⟨issued, hlogin, hcredentials, hnow⟩ := loggedIn_of_user hgenuine hinputs huser
    exact ⟨earlier, call, later, typed, issued, hinputs, hrequest, hauthor, hlogin, hcredentials,
      hnow, hmem⟩
  · rintro ⟨earlier, call, later, typed, issued, hinputs, hrequest, hauthor, -, hcredentials, hnow,
      hmem⟩
    refine ⟨earlier, _, later, hinputs, ⟨call, typed, rfl, hrequest, hauthor, ?_⟩, hmem⟩
    rw [hcredentials]
    exact user_of_access hnow

end Steps

/-- Its recipient marks the conversation as read. -/
def sampleMark : APICall Payload :=
  { sampleSend with request := .markRead (str "k1xyz") }

theorem genuine_sampleMark : Genuine plainAPI ()
    (sampleLogin ++ [.send sampleIncoming] ++ [.request sampleMark]) := by
  have hissued : (serverAfter plainAPI () (sampleLogin ++ [.send sampleIncoming])).issued =
      [plainAPI.access (str "EA1ABC") 1000] := by decide +kernel
  refine (genuine_sampleLogin.concat ?_).concat ?_
  · rintro call token ⟨⟩
  · rintro call token ⟨⟩ htoken
    left
    rw [hissued]
    exact List.mem_singleton.mpr (Option.some.inj htoken).symm

theorem receipts_honest_sampleMark : (serverAfter plainAPI ()
    (sampleLogin ++ [.send sampleIncoming] ++ [.request sampleMark])).database.isRead
      ((str "EA1ABC", 1), ⟨1, 1000, 1000, str "K1XYZ", [55, 51]⟩) = true := by
  obtain ⟨issued, hlogin, hcredentials, hnow⟩ := loggedIn_of_user genuine_sampleMark rfl
    (show plainAPI.user sampleMark.credentials sampleMark.now = .ok (str "EA1ABC") from rfl)
  exact (receipts_honest genuine_sampleMark (by decide +kernel)).mpr
    ⟨_, sampleMark, [], str "k1xyz", issued, rfl, rfl, rfl, hlogin, hcredentials, hnow,
      by decide +kernel⟩

end Api

end OpenQSP
