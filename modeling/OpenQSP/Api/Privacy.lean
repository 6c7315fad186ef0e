import OpenQSP.Api.Messages

/-!
# What a client can read

The messages that a response shows are messages to or from the callsign it is served for. The
identifier of such a message leads its author and its recipient back to it, at any later time, and
nobody else. What others do among themselves changes no answer to a request that only reads.

The last one is about two runs: each of the requests that only read is a function of the messages to
and from the callsign, of when these were delivered, and of the read cursors between the callsign
and its peers.

## Main definitions

* `Response.messages` — the messages of a response
* `APIMessage.withState` — a message that is shown with another state
* `APIMessage.Shows`, `APIMessage.OwnedBy` — the row of a message, and whose it is
* `SameFor` — two nodes that are the same for a callsign

## Main results

* `serve_ownedBy` — what the handlers show
* `Stored.exists_state` — a stored message has a state
* `getMessage_eq` — a request for one message looks among those of its callsign
* **`identifiers_resolve`**, **`messages_private`**, **`reads_confined`**
-/

namespace OpenQSP

open Tables

namespace Api

variable {ω τ : Type} {api : APISetup ω τ} {outside : ω}

/-- The messages of a response. -/
def Response.messages : Response τ → List APIMessage
  | .message shown => [shown]
  | .page messages _ => messages
  | .conversations list => list.map (·.lastMessage)
  | .synced messages _ => messages
  | _ => []

/-- The message, shown with a state. -/
def APIMessage.withState (message : APIMessage) (state : MessageState × Option ℕ) : APIMessage :=
  { message with deliveryStatus := state.1, deliveredAt := state.2 }

/-- The message is what the row says. -/
def APIMessage.Shows (message : APIMessage) (e : (Str × ℕ) × MessageRow) : Prop :=
  ∃ value, storedMessage e = .ok value ∧ messageId value.recipient value.sequence = .ok message.id ∧
    message.sender = value.author ∧ message.recipient = value.recipient ∧
    message.body = value.body ∧ message.createdAt = value.createdAt

section Rows

variable {message : APIMessage} {e : (Str × ℕ) × MessageRow} {value : StoredMessage}
  {d : Database} {t : Tables} {callsign : Str}

theorem APIMessage.Shows.names (h : message.Shows e) :
    message.sender = e.2.author ∧ message.recipient = e.1.1 := by
  obtain ⟨value, hstored, -, hsender, hrecipient, -⟩ := h
  obtain ⟨-, -, -, hr, ha, -⟩ := storedMessage_eq_ok hstored
  exact ⟨hsender.trans ha, hrecipient.trans hr⟩

theorem shows_of_project (hstored : storedMessage e = .ok value)
    (h : project d value = .ok message) : message.Shows e := by
  obtain ⟨⟨status, deliveredAt⟩, -, h⟩ := Py.bind_eq_ok.mp h
  obtain ⟨id, hid, h⟩ := Py.bind_eq_ok.mp h
  obtain rfl := Except.ok.inj h
  exact ⟨value, hstored, hid, rfl, rfl, rfl, rfl⟩

/-- The messages of a list show its rows. -/
theorem exists_shows {rows : List ((Str × ℕ) × MessageRow)} {values : List StoredMessage}
    {messages : List APIMessage} (hvalues : rows.mapM storedMessage = .ok values)
    (hmessages : values.mapM (project d) = .ok messages) (hmem : message ∈ messages) :
    ∃ e ∈ rows, message.Shows e := by
  obtain ⟨value, hvalue, hproject⟩ := Py.exists_of_mem_mapM hmessages hmem
  obtain ⟨e, he, hstored⟩ := Py.exists_of_mem_mapM hvalues hvalue
  exact ⟨e, he, shows_of_project hstored hproject⟩

/-- Every stored message has a state. -/
theorem Stored.exists_state (h : Stored d.toTables) (he : e ∈ d.messages.entries)
    (hstored : storedMessage e = .ok value) : ∃ state, d.messageState value = .ok state := by
  obtain ⟨-, hmax, hs, hr, ha, -⟩ := storedMessage_eq_ok hstored
  have hrecipient := h.consistent.recipients_encodable e he
  have hauthor := h.consistent.authors_encodable e he
  rw [← hr] at hrecipient
  rw [← ha] at hauthor
  obtain ⟨_, -, hstate⟩ := Database.messageState_eq (d := d) hrecipient hauthor (hs ▸ hmax)
  exact ⟨_, hstate⟩

/-- Only rows of the callsign are listed. -/
theorem apiListWith_rows {after : ℤ} {limit : ℕ} {peer : Option Str}
    {values : List StoredMessage} {more : Bool}
    (h : apiListWith callsign after limit peer t = .ok (values, more)) :
    ∃ rows : List ((Str × ℕ) × MessageRow), rows.mapM storedMessage = .ok values ∧
      ∀ e ∈ rows, e ∈ t.apiLog callsign := by
  rcases peer with _ | peer
  · obtain ⟨_, hcallsign, hlist⟩ := Py.bind_eq_ok.mp h
    obtain ⟨rfl, -⟩ := bindText_eq_ok.mp hcallsign
    obtain ⟨_, -, hlist⟩ := Py.bind_eq_ok.mp hlist
    obtain ⟨_, hvalues, hlist⟩ := Py.bind_eq_ok.mp hlist
    obtain ⟨rfl, -⟩ := Prod.mk.inj (Except.ok.inj hlist)
    refine ⟨_, hvalues, fun e he => ?_⟩
    have he := List.mem_of_mem_take (List.mem_of_mem_take he)
    simp only [List.mem_insertionSort, List.mem_filter, Bool.and_eq_true] at he
    exact List.mem_filter.mpr ⟨he.1, he.2.1⟩
  · obtain ⟨_, hcallsign, hlist⟩ := Py.bind_eq_ok.mp h
    obtain ⟨rfl, -⟩ := bindText_eq_ok.mp hcallsign
    obtain ⟨_, -, hlist⟩ := Py.bind_eq_ok.mp hlist
    obtain ⟨_, -, hlist⟩ := Py.bind_eq_ok.mp hlist
    obtain ⟨_, hvalues, hlist⟩ := Py.bind_eq_ok.mp hlist
    obtain ⟨rfl, -⟩ := Prod.mk.inj (Except.ok.inj hlist)
    refine ⟨_, hvalues, fun e he => ?_⟩
    have he := List.mem_of_mem_take (List.mem_of_mem_take he)
    simp only [List.mem_insertionSort, List.mem_filter, Bool.and_eq_true] at he
    exact List.mem_filter.mpr ⟨he.1, he.2.1.1⟩

theorem exists_row_of_getMessage {recipient : Str} {sequence : ℤ}
    (h : OpenQSP.getMessage recipient sequence t = .ok (some value)) :
    ∃ e ∈ t.messages.entries, storedMessage e = .ok value := by
  obtain ⟨row, hrow, h⟩ := Py.bind_eq_ok.mp h
  obtain rfl := messageAt_eq_ok hrow
  split at h
  · cases h
  · next e hfind =>
    obtain ⟨_, hstored, h⟩ := Py.bind_eq_ok.mp h
    obtain rfl := Option.some.inj (Except.ok.inj h)
    exact ⟨e, List.mem_of_find?_eq_some hfind, hstored⟩

end Rows

/-! ### The responses -/

/-- The message is stored, and it is to or from the callsign. -/
def APIMessage.OwnedBy (message : APIMessage) (callsign : Str) (t : Tables) : Prop :=
  (message.sender = callsign ∨ message.recipient = callsign) ∧
    ∃ e ∈ t.messages.entries, message.Shows e

section Handlers

variable {callsign : Str} {call : APICall τ} {t : Tables} {d : Database} {response : Response τ}

theorem ownedBy_of_apiLog {message : APIMessage} {e : (Str × ℕ) × MessageRow}
    (he : e ∈ t.apiLog callsign) (hshows : message.Shows e) : message.OwnedBy callsign t := by
  obtain ⟨he, hnames⟩ := List.mem_filter.mp he
  simp only [Bool.or_eq_true, decide_eq_true_eq] at hnames
  obtain ⟨hsender, hrecipient⟩ := hshows.names
  rw [APIMessage.OwnedBy, hsender, hrecipient]
  exact ⟨hnames, e, he, hshows⟩

theorem listMessages_ownedBy {limit : ℤ} {cursor : Option τ} {peer : Option Str}
    (h : api.listMessages callsign limit cursor peer d = .ok response) :
    ∀ m ∈ response.messages, m.OwnedBy callsign d.toTables := by
  obtain ⟨-, after, peer', values, more, messages, -, -, hlist, hmessages, rfl⟩ :=
    listMessages_eq_ok h
  obtain ⟨rows, hvalues, hrows⟩ := apiListWith_rows hlist
  intro m hm
  obtain ⟨e, he, hshows⟩ := exists_shows hvalues hmessages hm
  exact ownedBy_of_apiLog (hrows e he) hshows

theorem syncPage_ownedBy {after : ℤ} {high : ℕ}
    (h : api.syncPage callsign after high d = .ok response) :
    ∀ m ∈ response.messages, m.OwnedBy callsign d.toTables := by
  obtain ⟨values, more, messages, hlist, hmessages, position, rfl⟩ := syncPage_eq_ok h
  have hlist : apiListWith callsign after syncLimit none d.toTables = .ok (values, more) := hlist
  obtain ⟨rows, hvalues, hrows⟩ := apiListWith_rows hlist
  intro m hm
  obtain ⟨e, he, hshows⟩ := exists_shows hvalues hmessages hm
  exact ownedBy_of_apiLog (hrows e he) hshows

theorem conversations_ownedBy (h : APISetup.conversations callsign d = .ok response) :
    ∀ m ∈ response.messages, m.OwnedBy callsign d.toTables := by
  obtain ⟨list, hlist, h⟩ := reply_bind_eq_ok.mp h
  obtain ⟨summaries, hsummaries, h⟩ := reply_bind_eq_ok.mp h
  obtain rfl := Except.ok.inj h
  have hlist := ofPy_eq_ok.mp hlist
  obtain ⟨_, hcallsign, -⟩ := Py.bind_eq_ok.mp hlist
  rw [Database.conversations_eq (bindText_eq_ok.mp hcallsign).2] at hlist
  intro m hm
  obtain ⟨summary, hsummary, rfl⟩ := List.mem_map.mp hm
  obtain ⟨item, hitem, hitemSummary⟩ := Py.exists_of_mem_mapM (ofPy_eq_ok.mp hsummaries) hsummary
  obtain ⟨shown, hproject, heq⟩ := Py.bind_eq_ok.mp hitemSummary
  obtain rfl := Except.ok.inj heq
  obtain ⟨row, hrow, hrowSummary⟩ := Py.exists_of_mem_mapM hlist hitem
  exact ownedBy_of_apiLog (Database.mem_latest.mp hrow).1
    (shows_of_project (Database.summary_eq_ok hrowSummary).2.1 hproject)

theorem getMessage_ownedBy {id : Str} (h : api.getMessage callsign id d = .ok response) :
    ∀ m ∈ response.messages, m.OwnedBy callsign d.toTables := by
  obtain ⟨⟨recipient, sequence⟩, -, h⟩ := reply_bind_eq_ok.mp h
  obtain ⟨value, hvalue, h⟩ := reply_bind_eq_ok.mp h
  rcases value with _ | value
  · cases h
  dsimp only at h
  split at h
  · cases h
  · next hnames =>
    obtain ⟨shown, hproject, h⟩ := reply_bind_eq_ok.mp h
    obtain rfl := Except.ok.inj h
    obtain ⟨e, he, hstored⟩ := exists_row_of_getMessage (ofPy_eq_ok.mp hvalue)
    have hshows := shows_of_project hstored (ofPy_eq_ok.mp hproject)
    obtain ⟨-, -, -, hr, ha, -⟩ := storedMessage_eq_ok hstored
    intro m hm
    obtain rfl := List.mem_singleton.mp hm
    refine ownedBy_of_apiLog (List.mem_filter.mpr ⟨he, ?_⟩) hshows
    simp only [Bool.or_eq_true, decide_eq_true_eq, ← ha, ← hr]
    by_contra hnone
    exact hnames ⟨fun heq => hnone (.inl heq.symm), fun heq => hnone (.inr heq.symm)⟩

theorem send_ownedBy {recipient body idempotencyKey : Str} {now : ℤ} {s : APINode ω τ}
    (hstored : Stored s.node.tables)
    (h : (api.send callsign recipient body idempotencyKey now s).1 = .ok response) :
    ∀ m ∈ response.messages, m.OwnedBy callsign
      (api.send callsign recipient body idempotencyKey now s).2.node.tables := by
  rw [APISetup.send] at h ⊢
  rcases hcall : api.sendCall callsign recipient body idempotencyKey now with e | sendCall
  · rw [hcall] at h
    cases h
  rw [hcall] at h
  dsimp only at h ⊢
  obtain ⟨-, -, hresult⟩ := sendMessage_stored api.listeners sendCall hstored
  split at h
  · cases h
  · next acceptance hacceptance =>
    obtain ⟨shown, hproject, rfl⟩ := Py.map_eq_ok.mp (ofPy_eq_ok.mp h)
    obtain ⟨e, he, hrow, hauthor⟩ := hresult acceptance hacceptance
    intro m hm
    obtain rfl := List.mem_singleton.mp hm
    refine ownedBy_of_apiLog (List.mem_filter.mpr ⟨he, ?_⟩) (shows_of_project hrow hproject)
    obtain ⟨-, normalized, -, rfl⟩ := sendCall_eq_ok.mp hcall
    simp [hauthor]

theorem markRead_eq_ok {peer : Str} {s : APINode ω τ}
    (h : (api.markRead callsign peer s).1 = .ok response) :
    ∃ normalized last, response = .read normalized last := by
  rw [APISetup.markRead] at h
  split at h
  · dsimp only at h
    split at h
    · cases h
    · cases h
  · obtain ⟨result, -, rfl⟩ := Py.map_eq_ok.mp (ofPy_eq_ok.mp h)
    exact ⟨_, _, rfl⟩

/-- A response shows stored messages to or from the callsign. -/
theorem serve_ownedBy {s : APINode ω τ} (hstored : Stored s.node.tables)
    (h : (api.serve callsign call s).1 = .ok response) :
    ∀ m ∈ response.messages, m.OwnedBy callsign (api.serve callsign call s).2.node.tables := by
  rw [APISetup.serve] at h ⊢
  split at h
  · obtain rfl := Except.ok.inj h
    intro m hm
    cases hm
  · exact send_ownedBy hstored h
  · exact listMessages_ownedBy h
  · exact getMessage_ownedBy h
  · exact conversations_ownedBy h
  · obtain ⟨normalized, last, rfl⟩ := markRead_eq_ok h
    intro m hm
    cases hm
  · obtain ⟨after, high, hpage⟩ := sync_eq_ok h
    exact syncPage_ownedBy hpage

end Handlers

theorem respond_ownedBy {inputs earlier later : List (Input τ)} {call : APICall τ}
    (hinputs : inputs = earlier ++ .request call :: later) {response : Response τ}
    (hresponse : (api.respond call (serverAfter api outside earlier)).1 = .ok response) :
    ∃ callsign, api.user call.credentials call.now = .ok callsign ∧
      ∀ m ∈ response.messages, m.OwnedBy callsign (serverAfter api outside inputs).node.tables := by
  have hkept := serverAfter_kept api outside (earlier ++ [.request call]) later
  rw [List.append_assoc, List.singleton_append, ← hinputs, serverAfter_concat] at hkept
  obtain ⟨callsign, presence, huser, hserve, hnode⟩ := respond_eq_ok hresponse
  have hafter : (step api (serverAfter api outside earlier) (.request call)).node.tables =
      (api.serve callsign call (serverAfter api outside earlier)).2.node.tables := by
    show (api.respond call _).2.node.tables = _
    rw [hnode]
    rfl
  refine ⟨callsign, huser, fun m hm => ?_⟩
  obtain ⟨hnames, e, he, hshows⟩ := serve_ownedBy (serverAfter_stored earlier) hserve m hm
  rw [hafter] at hkept
  exact ⟨hnames, e, hkept.1.subset he, hshows⟩

/-! ### Asking for one message -/

/-- An item that is the only one of its kind is found among some, if it is one of them. -/
theorem find?_filter_of_unique {α : Type} {p q : α → Bool} {l : List α}
    (h : ∀ a ∈ l, ∀ b ∈ l, p a = true → p b = true → a = b) :
    (l.filter q).find? p = (l.find? p).filter q := by
  induction l with
  | nil => rfl
  | cons a l ih =>
    have ih := ih fun b hb c hc => h b (List.mem_cons_of_mem _ hb) c (List.mem_cons_of_mem _ hc)
    by_cases hp : p a = true
    · by_cases hq : q a = true
      · simp [hp, hq, Option.filter]
      · rw [List.filter_cons_of_neg hq, List.find?_cons_of_pos hp, Option.filter, if_neg hq,
          List.find?_eq_none]
        intro b hb hpb
        obtain ⟨hb, hqb⟩ := List.mem_filter.mp hb
        obtain rfl := h a List.mem_cons_self b (List.mem_cons_of_mem _ hb) hp hpb
        exact hq hqb
    · rw [List.find?_cons_of_neg hp, ← ih, List.filter_cons]
      split
      · rw [List.find?_cons_of_neg hp]
      · rfl

section One

variable {callsign : Str} {d : Database}

/-- Two messages have not one key. -/
theorem eq_of_key (t : Tables) (recipient : Str) (sequence : ℤ) :
    ∀ a ∈ t.messages.entries, ∀ b ∈ t.messages.entries,
      (a.1.1 = recipient && decide ((a.1.2 : ℤ) = sequence)) = true →
      (b.1.1 = recipient && decide ((b.1.2 : ℤ) = sequence)) = true → a = b := by
  intro a ha b hb hkey hkey'
  simp only [Bool.and_eq_true, decide_eq_true_eq] at hkey hkey'
  refine OrderedDict.eq_of_fst_eq ha hb (Prod.ext (hkey.1.trans hkey'.1.symm) ?_)
  exact Int.ofNat_inj.mp (hkey.2.trans hkey'.2.symm)

/-- The response that shows a row, if there is one. -/
def showRow (d : Database) : Option ((Str × ℕ) × MessageRow) → Reply (Response τ)
  | none => fail notFound
  | some e => do
    let value ← ofPy (storedMessage e)
    return .message (← ofPy (project d value))

/-- A request for one message looks among those of its callsign. -/
theorem getMessage_eq (h : Stored d.toTables) (id : Str) : api.getMessage callsign id d = (do
    let (recipient, sequence) ← parseMessageId api.integers id
    let recipient ← ofPy (bindText recipient)
    let sequence ← ofPy (bindInteger sequence)
    showRow d ((d.apiLog callsign).find? fun e =>
      e.1.1 = recipient && (e.1.2 : ℤ) = sequence)) := by
  rw [APISetup.getMessage]
  refine bind_congr fun parsed => ?_
  obtain ⟨recipient, sequence⟩ := parsed
  dsimp only
  rw [OpenQSP.getMessage, messageAt]
  rcases hrecipient : bindText recipient with e | recipient'
  · rfl
  obtain ⟨rfl, -⟩ := bindText_eq_ok.mp hrecipient
  rcases hsequence : bindInteger sequence with e | sequence'
  · rfl
  obtain rfl := bindInteger_eq_ok hsequence
  have hfind : (d.apiLog callsign).find? _ = _ := find?_filter_of_unique
    (q := fun e => e.2.author = callsign || e.1.1 = callsign)
    (eq_of_key d.toTables recipient' sequence')
  show _ = showRow d _
  rw [hfind]
  simp only [Py.ok_bind, Py.pure_eq_ok]
  generalize hrow : d.messages.entries.find? _ = row
  rcases row with _ | e
  · rfl
  · obtain ⟨value, hvalue⟩ := h.consistent.readable e (List.mem_of_find?_eq_some hrow)
    obtain ⟨-, -, -, hr, ha, -⟩ := storedMessage_eq_ok hvalue
    simp only [hvalue, Py.ok_bind, Option.filter]
    show (if callsign ≠ value.author ∧ callsign ≠ value.recipient then _ else _) = _
    rw [hr, ha]
    split
    · next hnames =>
      rw [if_neg (by simp [hnames.1.symm, hnames.2.symm])]
      rfl
    · next hnames =>
      rw [if_pos, showRow, hvalue]
      · rfl
      · simp only [Bool.or_eq_true, decide_eq_true_eq]
        by_contra hnone
        exact hnames ⟨fun heq => hnone (.inl heq.symm), fun heq => hnone (.inr heq.symm)⟩

/-- The identifier of a stored message leads its two callsigns to it, and nobody else. -/
theorem getMessage_id (h : Stored d.toTables) {e : (Str × ℕ) × MessageRow}
    (he : e ∈ d.messages.entries) {m : APIMessage} (hshows : m.Shows e) :
    api.getMessage callsign m.id d =
      if callsign = m.sender ∨ callsign = m.recipient then showRow d (some e)
      else fail notFound := by
  obtain ⟨hsender, hrecipient⟩ := hshows.names
  obtain ⟨value, hvalue, hid, -⟩ := hshows
  obtain ⟨-, hmax, hs, hr, -⟩ := storedMessage_eq_ok hvalue
  rw [getMessage_eq h, parseMessageId_messageId api.integers (hs ▸ hmax) hid]
  show (ofPy (bindText value.recipient) >>= _) = _
  rw [hr, bindText_of_isSome (h.consistent.recipients_encodable e he)]
  show (ofPy (bindInteger value.sequence) >>= _) = _
  rw [hs, bindInteger_of_le hmax]
  show showRow d ((d.apiLog callsign).find? _) = _
  have hfind : (d.apiLog callsign).find? _ = _ := find?_filter_of_unique
    (q := fun e => e.2.author = callsign || e.1.1 = callsign) (eq_of_key d.toTables e.1.1 e.1.2)
  have hrow : d.messages.entries.find? (fun e' => e'.1.1 = e.1.1 && (e'.1.2 : ℤ) = e.1.2) =
      some e := by
    rcases hfind' : d.messages.entries.find? (fun e' =>
      e'.1.1 = e.1.1 && (e'.1.2 : ℤ) = e.1.2) with _ | e'
    · exact absurd (List.find?_eq_none.mp hfind' e he) (by simp)
    · have hkey := List.find?_some hfind'
      obtain rfl := eq_of_key d.toTables e.1.1 e.1.2 e' (List.mem_of_find?_eq_some hfind') e he
        hkey (by simp)
      exact hfind'
  rw [hfind, hrow, hsender, hrecipient, Option.filter]
  by_cases hnames : callsign = e.2.author ∨ callsign = e.1.1
  · rw [if_pos hnames, if_pos]
    rcases hnames with rfl | rfl
    · simp
    · simp
  · rw [if_neg hnames, if_neg]
    · rfl
    · simp only [Bool.or_eq_true, decide_eq_true_eq]
      exact fun hnames' => hnames (hnames'.imp Eq.symm Eq.symm)

/-- A message that is shown again is the same, with the state that it has now. -/
theorem project_of_shows {e : (Str × ℕ) × MessageRow} {m : APIMessage} {value : StoredMessage}
    (hshows : m.Shows e) (hvalue : storedMessage e = .ok value)
    {state : MessageState × Option ℕ} (hstate : d.messageState value = .ok state) :
    project d value = .ok (m.withState state) := by
  obtain ⟨id, sender, recipient, body, createdAt, status, deliveredAt⟩ := m
  obtain ⟨value', hvalue', hid, rfl, rfl, rfl, rfl⟩ := hshows
  obtain rfl := Except.ok.inj (hvalue'.symm.trans hvalue)
  dsimp only at hid
  rw [project, hstate, Py.ok_bind]
  dsimp only
  rw [hid]
  rfl

end One

/-- **Identifiers lead back.** In every run: whoever asks for a message by the identifier that some
response has shown, at any later time, gets this message, with the state that it has then, if he is
its sender or its recipient; for anybody else there is no such message. -/
theorem identifiers_resolve {inputs earlier later : List (Input τ)} {call : APICall τ}
    (hinputs : inputs = earlier ++ .request call :: later) {response : Response τ}
    (hresponse : (api.respond call (serverAfter api outside earlier)).1 = .ok response)
    {m : APIMessage} (hm : m ∈ response.messages) {call' : APICall τ} {callsign : Str}
    (huser : api.user call'.credentials call'.now = .ok callsign)
    (hget : call'.request = .getMessage m.id) :
    ∃ e ∈ (serverAfter api outside inputs).database.messages.entries, ∃ value state,
      storedMessage e = .ok value ∧ messageId value.recipient value.sequence = .ok m.id ∧
      m.sender = value.author ∧ m.recipient = value.recipient ∧ m.body = value.body ∧
      m.createdAt = value.createdAt ∧
      (serverAfter api outside inputs).database.messageState value = .ok state ∧
      (api.respond call' (serverAfter api outside inputs)).1 =
        if callsign = m.sender ∨ callsign = m.recipient then .ok (.message (m.withState state))
        else fail notFound := by
  obtain ⟨_, -, howned⟩ := respond_ownedBy hinputs hresponse
  obtain ⟨-, e, he, hshows⟩ := howned m hm
  have hstored : Stored (serverAfter api outside inputs).database.toTables :=
    serverAfter_stored inputs
  have hsockets : (serverAfter api outside inputs).sockets.Owned := serverAfter_owned inputs
  obtain ⟨hauthor, hrecipient⟩ := serverAfter_names inputs e he
  obtain ⟨hsender, hto⟩ := hshows.names
  rw [← hsender] at hauthor
  rw [← hto] at hrecipient
  have hshown := hshows
  obtain ⟨value, hvalue, hid, hnameSender, hnameRecipient, hbody, hcreatedAt⟩ := hshown
  obtain ⟨state, hstate⟩ := hstored.exists_state he hvalue
  refine ⟨e, he, value, state, hvalue, hid, hnameSender, hnameRecipient, hbody, hcreatedAt, hstate,
    ?_⟩
  have hserve : (api.serve callsign call' (serverAfter api outside inputs)).1 =
      api.getMessage callsign m.id (serverAfter api outside inputs).database := by
    rw [APISetup.serve, hget]
  rw [getMessage_id hstored he hshows] at hserve
  split at hserve
  · next hnames =>
    have hvalid : ValidCallsign callsign := by
      rcases hnames with rfl | rfl
      · exact hauthor
      · exact hrecipient
    rw [if_pos hnames, respond_of_valid hsockets hvalid huser, hserve, showRow, hvalue]
    show (ofPy (project _ value) >>= _) = _
    rw [project_of_shows hshows hvalue hstate]
    rfl
  · next hnames =>
    rw [if_neg hnames, respond_of_user huser, APISetup.recordActivity, hserve]
    rfl

/-- What is answered to `sampleSend`. -/
def sampleShown : APIMessage :=
  ⟨str "SzFYWVo6MQ", str "EA1ABC", str "K1XYZ", str "73", 1001, .stored, none⟩

theorem respond_sampleSend : (plainAPI.respond sampleSend (serverAfter plainAPI () sampleLogin)).1 =
    .ok (.message sampleShown) := by
  decide +kernel

/-- The author asks for the message. -/
def sampleGet : APICall Payload :=
  { sampleSend with
    request := .getMessage sampleShown.id
    now := 1002 }

theorem identifiers_resolve_sampleGet : ∃ e ∈ (serverAfter plainAPI ()
    (sampleLogin ++ [.request sampleSend])).database.messages.entries, ∃ value state,
    storedMessage e = .ok value ∧
      (serverAfter plainAPI () (sampleLogin ++ [.request sampleSend])).database.messageState value =
        .ok state ∧
      (plainAPI.respond sampleGet
        (serverAfter plainAPI () (sampleLogin ++ [.request sampleSend]))).1 =
          .ok (.message (sampleShown.withState state)) := by
  obtain ⟨e, he, value, state, hvalue, -, -, -, -, -, hstate, hget⟩ := identifiers_resolve
    (show sampleLogin ++ [.request sampleSend] = sampleLogin ++ .request sampleSend :: [] from rfl)
    respond_sampleSend
    (List.mem_singleton_self _) (show plainAPI.user sampleGet.credentials sampleGet.now =
      .ok (str "EA1ABC") from rfl) rfl
  refine ⟨e, he, value, state, hvalue, hstate, ?_⟩
  rw [hget]
  rfl

/-- **What a client reads is his.** In every run in which nobody presents a forged access token: a
request that is answered carries the access token of a login, not longer before than tokens live,
and every message that the response shows is to or from the callsign of this login, and in the
database from then on. -/
theorem messages_private {inputs earlier later : List (Input τ)} {call : APICall τ}
    (hgenuine : Genuine api outside inputs) (hinputs : inputs = earlier ++ .request call :: later)
    {response : Response τ}
    (hresponse : (api.respond call (serverAfter api outside earlier)).1 = .ok response) :
    ∃ callsign issued, api.user call.credentials call.now = .ok callsign ∧
      LoggedIn api outside earlier callsign issued ∧
      call.credentials = some (api.access callsign issued) ∧
      call.now ≤ issued + api.lifetime ∧
      ∀ m ∈ response.messages, m.OwnedBy callsign (serverAfter api outside inputs).node.tables := by
  obtain ⟨callsign, huser, howned⟩ := respond_ownedBy hinputs hresponse
  obtain ⟨issued, hlogin, hcredentials, hnow⟩ := loggedIn_of_user hgenuine hinputs huser
  exact ⟨callsign, issued, huser, hlogin, hcredentials, hnow, howned⟩

theorem messages_private_sampleSend : ∃ callsign issued,
    plainAPI.user sampleSend.credentials sampleSend.now = .ok callsign ∧
      LoggedIn plainAPI () sampleLogin callsign issued ∧
      sampleShown.OwnedBy callsign
        (serverAfter plainAPI () (sampleLogin ++ [.request sampleSend])).node.tables := by
  obtain ⟨callsign, issued, huser, hlogin, -, -, howned⟩ :=
    messages_private genuine_sampleSend
    (show sampleLogin ++ [.request sampleSend] = sampleLogin ++ .request sampleSend :: [] from rfl)
    respond_sampleSend
  exact ⟨callsign, issued, huser, hlogin, howned sampleShown (List.mem_singleton_self _)⟩

/-! ### What others do -/

/-- The callsign has the same messages, read and delivered to the same extent. -/
structure SameFor (callsign : Str) (s s' : APINode ω τ) : Prop where
  log : s.node.tables.apiLog callsign = s'.node.tables.apiLog callsign
  reads : ∀ peer, s.conversationReads.get? (callsign, peer) =
    s'.conversationReads.get? (callsign, peer)
  /-- What its peers have read of the conversation with it. -/
  receipts : ∀ peer, s.conversationReads.get? (peer, callsign) =
    s'.conversationReads.get? (peer, callsign)
  delivered : ∀ e ∈ s.node.tables.apiLog callsign,
    s.database.lastDelivered e.1.1 e.1.2 = s'.database.lastDelivered e.1.1 e.1.2

/-- The request only reads, and returns no position in the log of all messages. -/
def Request.Reads : Request τ → Prop
  | .me | .listMessages .. | .getMessage _ | .conversations => True
  | _ => False

section Same

variable {callsign : Str} {t t' : Tables}

theorem filter_apiLog (t : Tables) (callsign : Str) (p : (Str × ℕ) × MessageRow → Bool) :
    t.messages.entries.filter (fun e => (e.2.author = callsign || e.1.1 = callsign) && p e) =
      (t.apiLog callsign).filter p := by
  rw [apiLog, List.filter_filter]
  exact List.filter_congr fun e _ => Bool.and_comm _ _

theorem apiListWith_congr (h : t.apiLog callsign = t'.apiLog callsign) (after : ℤ) (limit : ℕ)
    (peer : Option Str) :
    apiListWith callsign after limit peer t = apiListWith callsign after limit peer t' := by
  rcases peer with _ | peer
  · rw [apiListWith, apiListWith, apiList, apiList]
    rcases hcallsign : bindText callsign with e | callsign'
    · rfl
    obtain ⟨rfl, -⟩ := bindText_eq_ok.mp hcallsign
    simp only [Py.ok_bind, filter_apiLog, h]
  · rw [apiListWith, apiListWith]
    rcases hcallsign : bindText callsign with e | callsign'
    · rfl
    obtain ⟨rfl, -⟩ := bindText_eq_ok.mp hcallsign
    simp only [Py.ok_bind, Bool.and_assoc, filter_apiLog, h]

theorem countUnread_apiLog (t : Tables) (callsign peer : Str) (last : ℕ) :
    Database.countUnread t callsign peer last = (t.apiLog callsign).countP fun e =>
      e.1.1 = callsign && e.2.author = peer && last < e.1.2 := by
  rw [Database.countUnread, apiLog, List.countP_filter]
  refine List.countP_congr fun e _ => ?_
  simp only [Bool.and_eq_true, Bool.or_eq_true, decide_eq_true_eq]
  constructor
  · rintro ⟨⟨hrecipient, hauthor⟩, hlast⟩
    exact ⟨⟨⟨hrecipient, hauthor⟩, hlast⟩, .inr hrecipient⟩
  · exact And.left

theorem summary_congr {d d' : Database} (h : d.apiLog callsign = d'.apiLog callsign)
    (hreads : ∀ peer, d.conversationReads.get? (callsign, peer) =
      d'.conversationReads.get? (callsign, peer)) (row : (Str × ℕ) × MessageRow) :
    Database.summary callsign d row = Database.summary callsign d' row := by
  simp only [Database.summary, countUnread_apiLog, h, hreads]

/-- A message of the callsign is shown in the same way. -/
theorem SameFor.project_eq {s s' : APINode ω τ} (h : SameFor callsign s s')
    {e : (Str × ℕ) × MessageRow} (he : e ∈ s.node.tables.apiLog callsign) {value : StoredMessage}
    (hvalue : storedMessage e = .ok value) :
    project s.database value = project s'.database value := by
  obtain ⟨-, -, hs, hr, ha, -⟩ := storedMessage_eq_ok hvalue
  have hdelivered := h.delivered e he
  rw [← hr, ← hs] at hdelivered
  have hreads : s.conversationReads.get? (value.recipient, value.author) =
      s'.conversationReads.get? (value.recipient, value.author) := by
    have hnames := (List.mem_filter.mp he).2
    simp only [Bool.or_eq_true, decide_eq_true_eq, ← ha, ← hr] at hnames
    rcases hnames with hauthor | hrecipient
    · rw [hauthor]
      exact h.receipts _
    · rw [hrecipient]
      exact h.reads _
  have hlast : s.database.lastRead value.recipient value.author =
      s'.database.lastRead value.recipient value.author := by
    rw [Database.lastRead, Database.lastRead]
    rcases hrecipient : bindText value.recipient with e | recipient
    · rfl
    rcases hauthor : bindText value.author with e | author
    · rfl
    rw [(bindText_eq_ok.mp hrecipient).1, (bindText_eq_ok.mp hauthor).1]
    exact congrArg Except.ok hreads
  rw [project, project, Database.messageState, Database.messageState, hlast, hdelivered]

/-- The messages of a list of the callsign are shown in the same way. -/
theorem SameFor.mapM_project_eq {s s' : APINode ω τ} (h : SameFor callsign s s') {after : ℤ}
    {limit : ℕ} {peer : Option Str} {values : List StoredMessage} {more : Bool}
    (hlist : apiListWith callsign after limit peer s.node.tables = .ok (values, more)) :
    values.mapM (project s.database) = values.mapM (project s'.database) := by
  obtain ⟨rows, hvalues, hrows⟩ := apiListWith_rows hlist
  refine Py.mapM_congr fun value hvalue => ?_
  obtain ⟨e, he, hstored⟩ := Py.exists_of_mem_mapM hvalues hvalue
  exact h.project_eq (hrows e he) hstored

theorem SameFor.showRow_eq {s s' : APINode ω τ} (h : SameFor callsign s s')
    {row : Option ((Str × ℕ) × MessageRow)} (hrow : ∀ e ∈ row, e ∈ s.node.tables.apiLog callsign) :
    (showRow s.database row : Reply (Response τ)) = showRow s'.database row := by
  rcases row with _ | e
  · rfl
  · rw [showRow, showRow]
    rcases hvalue : storedMessage e with _ | value
    · rfl
    · show (ofPy (project _ value) >>= _) = (ofPy (project _ value) >>= _)
      rw [h.project_eq (hrow e rfl) hvalue]

theorem SameFor.conversations_eq {s s' : APINode ω τ} (h : SameFor callsign s s') :
    (APISetup.conversations callsign s.database : Reply (Response τ)) =
      APISetup.conversations callsign s'.database := by
  have hlog : s.database.apiLog callsign = s'.database.apiLog callsign := h.log
  have hlist : s.database.conversations callsign = s'.database.conversations callsign := by
    rw [Database.conversations, Database.conversations]
    rcases hcallsign : bindText callsign with e | callsign'
    · rfl
    obtain ⟨rfl, -⟩ := bindText_eq_ok.mp hcallsign
    have hsummary : Database.summary callsign' s.database =
        Database.summary callsign' s'.database := by
      funext row
      exact summary_congr hlog h.reads row
    simp only [Py.ok_bind, hlog, hsummary]
  rw [APISetup.conversations, APISetup.conversations, ← hlist]
  rcases hitems : s.database.conversations callsign with e | list
  · rfl
  obtain ⟨_, hcallsign, -⟩ := Py.bind_eq_ok.mp hitems
  rw [Database.conversations_eq (bindText_eq_ok.mp hcallsign).2] at hitems
  refine congrArg (fun summaries : Py (List APIConversation) =>
    (ofPy summaries >>= fun summaries => pure (.conversations summaries) : Reply (Response τ)))
    (Py.mapM_congr fun item hitem => ?_)
  obtain ⟨row, hrow, hsummary⟩ := Py.exists_of_mem_mapM hitems hitem
  rw [h.project_eq (Database.mem_latest.mp hrow).1 (Database.summary_eq_ok hsummary).2.1]

/-- A callsign gets the same answers. -/
theorem serve_congr {call : APICall τ} {s s' : APINode ω τ} (hs : Stored s.node.tables)
    (hs' : Stored s'.node.tables) (h : SameFor callsign s s') (hreads : call.request.Reads) :
    (api.serve callsign call s).1 = (api.serve callsign call s').1 := by
  rw [APISetup.serve, APISetup.serve]
  rcases hrequest : call.request with _ | ⟨recipient, body, key⟩ | ⟨limit, cursor, peer⟩ | id | _ |
    peer | ⟨cursor, meanwhile⟩
  · rfl
  · rw [hrequest] at hreads
    cases hreads
  · show api.listMessages _ _ _ _ _ = api.listMessages _ _ _ _ _
    rw [APISetup.listMessages, APISetup.listMessages]
    refine if_congr Iff.rfl rfl (bind_congr fun after => bind_congr fun peer => ?_)
    have hlist : apiListWith callsign after limit.toNat peer s'.node.tables =
        apiListWith callsign after limit.toNat peer s.node.tables :=
      (apiListWith_congr h.log after limit.toNat peer).symm
    show (ofPy (apiListWith _ _ _ _ s.node.tables) >>= _) =
      (ofPy (apiListWith _ _ _ _ s'.node.tables) >>= _)
    rw [hlist]
    rcases hvalues : apiListWith callsign after limit.toNat peer s.node.tables with
      e | ⟨values, more⟩
    · rfl
    · show (ofPy (values.mapM _) >>= _) = (ofPy (values.mapM _) >>= _)
      rw [h.mapM_project_eq hvalues]
  · show api.getMessage _ _ _ = api.getMessage _ _ _
    have hlog : s'.database.apiLog callsign = s.database.apiLog callsign := h.log.symm
    rw [getMessage_eq hs, getMessage_eq hs', hlog]
    refine bind_congr fun parsed => bind_congr fun recipient => bind_congr fun sequence => ?_
    exact h.showRow_eq fun e he => List.mem_of_find?_eq_some he
  · exact h.conversations_eq
  · rw [hrequest] at hreads
    cases hreads
  · rw [hrequest] at hreads
    cases hreads

end Same

/-- **The doings of others do not show.** In every two runs, which may differ in all that others
have stored, asked for and read among themselves: a request that only reads gets the same answer, be
it a response or a failure, when its callsign has the same messages, these have been delivered and
read to the same extent, and it has read the same. -/
theorem reads_confined {outside' : ω} {inputs inputs' : List (Input τ)} {call : APICall τ}
    {callsign : Str} (huser : api.user call.credentials call.now = .ok callsign)
    (hreads : call.request.Reads)
    (h : SameFor callsign (serverAfter api outside inputs) (serverAfter api outside' inputs')) :
    (api.respond call (serverAfter api outside inputs)).1 =
      (api.respond call (serverAfter api outside' inputs')).1 := by
  have hserve : (api.serve callsign call (serverAfter api outside inputs)).1 =
      (api.serve callsign call (serverAfter api outside' inputs')).1 :=
    serve_congr (serverAfter_stored inputs) (serverAfter_stored inputs') h hreads
  rw [respond_of_user huser, respond_of_user huser, recordActivity_fst, recordActivity_fst, hserve]
  · rw [(serve_sockets api callsign call _).1]
    exact serverAfter_owned inputs'
  · rw [(serve_sockets api callsign call _).1]
    exact serverAfter_owned inputs

/-- A message to the account of `sampleLogin`. -/
def sampleIncoming : SendCall :=
  ⟨str "K1XYZ", str "EA1ABC", str "73", 1000, none, [], 1000⟩

/-- A message between two others. -/
def otherSend : SendCall :=
  ⟨str "K1XYZ", str "N0CALL", str "73", 1000, none, [], 1000⟩

/-- One of the others marks their conversation as read. -/
def otherMark : APICall Payload where
  credentials := some (plainAPI.access (str "N0CALL") 1000)
  request := .markRead (str "K1XYZ")
  now := 1001

/-- A request for the whole mailbox. -/
def sampleList : APICall Payload :=
  { sampleSend with request := .listMessages 50 none none }

theorem conversationReads_otherMark : (serverAfter plainAPI ()
    [.send sampleIncoming, .send otherSend, .request otherMark]).conversationReads.entries =
      [((str "N0CALL", str "K1XYZ"), 1)] := by
  decide +kernel

theorem reads_confined_otherMark :
    (plainAPI.respond sampleList (serverAfter plainAPI () [.send sampleIncoming])).1 =
      (plainAPI.respond sampleList (serverAfter plainAPI ()
        [.send sampleIncoming, .send otherSend, .request otherMark])).1 := by
  refine reads_confined (show plainAPI.user sampleList.credentials sampleList.now =
    .ok (str "EA1ABC") from rfl) trivial ⟨by decide +kernel, fun peer => ?_, fun peer => ?_,
      by decide +kernel⟩
  · symm
    rw [OrderedDict.get?, conversationReads_otherMark]
    simp [str]
    rfl
  · symm
    rw [OrderedDict.get?, conversationReads_otherMark]
    simp [str]
    rfl

end Api

end OpenQSP
