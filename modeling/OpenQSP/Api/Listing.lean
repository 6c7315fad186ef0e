import OpenQSP.Api.Privacy

/-!
# Listing all messages

A client that follows the cursors of `/messages`, with any limits, while others go on sending,
receives its messages in their order, each of them once, and at the last page it has received all of
them. A page that is not the last one is full, and a cursor that was returned is accepted.

## Main definitions

* `listed` — the messages that are listed, with one peer or with all
* `Received` — a client has received the listing up to its cursor
* `Listing` — a client that has read some pages

## Main results

* `apiListWith_page` — one page of the query
* `Received.pageRead`, `Received.exists_page` — the next page of a client
* `Listing.progress` — what holds along the run
* **`pages_complete`**
-/

namespace OpenQSP

open Tables

namespace Api

variable {ω τ : Type} {api : APISetup ω τ} {outside : ω}

/-- The messages that are listed for a callsign. -/
def listed (t : Tables) (callsign : Str) : Option Str → List ((Str × ℕ) × MessageRow)
  | none => t.apiLog callsign
  | some peer => (t.apiLog callsign).filter fun e =>
      e.2.author = callsign && e.1.1 = peer || e.2.author = peer && e.1.1 = callsign

section Pages

variable {t t' : Tables} {callsign : Str} {peer : Option Str}

theorem listed_sublist (t : Tables) (callsign : Str) (peer : Option Str) :
    (listed t callsign peer).Sublist t.messages.entries := by
  rcases peer with _ | peer
  · exact List.filter_sublist
  · exact List.filter_sublist.trans List.filter_sublist

theorem Stored.ascending_listed (h : Stored t) (callsign : Str) (peer : Option Str) :
    Ascending apiPosition (listed t callsign peer) :=
  Ascending.sublist h.consistent.contiguous_api.ascending (listed_sublist t callsign peer)

theorem Stored.position_le (h : Stored t) {e : (Str × ℕ) × MessageRow}
    (he : e ∈ listed t callsign peer) :
    0 < apiPosition e ∧ apiPosition e ≤ t.apiMessageSequence := by
  obtain ⟨hpos, hle⟩ := h.consistent.contiguous_api.le ((listed_sublist t callsign peer).subset he)
  exact ⟨Int.ofNat_lt.mpr hpos, Int.ofNat_le.mpr hle⟩

/-- What is sent later is listed later. -/
theorem listed_extends (h : Stored t) (h' : Stored t')
    (hkept : t.messages.entries <+: t'.messages.entries) (callsign : Str) (peer : Option Str) :
    ∃ later, listed t' callsign peer = listed t callsign peer ++ later ∧
      ∀ e ∈ later, (t.apiMessageSequence : ℤ) < apiPosition e := by
  obtain ⟨rest, hrest⟩ := hkept
  have hcontiguous := h'.consistent.contiguous_api
  rw [← hrest] at hcontiguous
  have hlater : ∀ e ∈ rest, (t.apiMessageSequence : ℤ) < apiPosition e := fun e he =>
    Int.ofNat_lt.mpr (h.consistent.contiguous_api.lt_later hcontiguous he)
  obtain ⟨later, hlog, hrows⟩ : ∃ later, t'.apiLog callsign = t.apiLog callsign ++ later ∧
      ∀ e ∈ later, (t.apiMessageSequence : ℤ) < apiPosition e := by
    refine ⟨rest.filter fun e => e.2.author = callsign || e.1.1 = callsign, ?_, fun e he =>
      hlater e (List.mem_filter.mp he).1⟩
    rw [apiLog, apiLog, ← hrest, List.filter_append]
  rcases peer with _ | peer
  · exact ⟨later, hlog, hrows⟩
  · refine ⟨later.filter fun e => e.2.author = callsign && e.1.1 = peer ||
      e.2.author = peer && e.1.1 = callsign, ?_, fun e he => hrows e (List.mem_filter.mp he).1⟩
    rw [listed, hlog, List.filter_append]
    rfl

variable (callsign peer) in
/-- The rows of a page, which are in order, can be read. -/
theorem Stored.readPage (h : Stored t) (after : ℤ) (limit : ℕ) :
    ∃ values, List.Forall₂ (fun e message => storedMessage e = .ok message)
        (page apiPosition (listed t callsign peer) after limit) values ∧
      (do
        let rows := ((beyond apiPosition (listed t callsign peer) after).insertionSort
          fun e e' => e.2.apiSequence ≤ e'.2.apiSequence).take (limit + 1)
        let messages ← (rows.take limit).mapM storedMessage
        return (messages, decide (limit < rows.length)) : Py (List StoredMessage × Bool)) =
      .ok (values, decide (limit <
        (page apiPosition (listed t callsign peer) after (limit + 1)).length)) := by
  obtain ⟨values, hvalues, hmapM⟩ := Py.exists_mapM (f := storedMessage)
    (l := page apiPosition (listed t callsign peer) after limit) fun e he =>
      h.consistent.readable e ((listed_sublist t callsign peer).subset (page_subset_beyond he).1)
  have hsorted : (beyond apiPosition (listed t callsign peer) after).Pairwise
      fun e e' => e.2.apiSequence ≤ e'.2.apiSequence :=
    (h.ascending_listed callsign peer).beyond.imp fun hlt => (Int.ofNat_lt.mp hlt).le
  have htake : ((beyond apiPosition (listed t callsign peer) after).take (limit + 1)).take limit =
      page apiPosition (listed t callsign peer) after limit := by
    rw [List.take_take, Nat.min_eq_left (Nat.le_succ _), page]
  refine ⟨values, hvalues, ?_⟩
  simp only [hsorted.insertionSort_eq, htake, hmapM, Py.ok_bind]
  rfl

/-- One page of the listing. -/
theorem apiListWith_page (h : Stored t) (hcallsign : (encodeUtf8 callsign).isSome)
    (hpeer : ∀ name ∈ peer, (encodeUtf8 name).isSome) {after : ℤ} (hpos : 0 ≤ after)
    (hafter : after ≤ t.apiMessageSequence) (limit : ℕ) :
    ∃ values, List.Forall₂ (fun e message => storedMessage e = .ok message)
        (page apiPosition (listed t callsign peer) after limit) values ∧
      apiListWith callsign after limit peer t = .ok (values, decide (limit <
        (page apiPosition (listed t callsign peer) after (limit + 1)).length)) := by
  have hbind : bindInteger after = .ok after := by
    have hmax : after ≤ maxSqliteInteger := hafter.trans (by exact_mod_cast h.api_le)
    rw [bindInteger, if_pos ⟨by omega, hmax⟩]
  obtain ⟨values, hvalues, hread⟩ := h.readPage callsign peer after limit
  refine ⟨values, hvalues, ?_⟩
  rw [← hread]
  rcases peer with _ | peer
  · rw [apiListWith, apiList, bindText_of_isSome hcallsign, Py.ok_bind, hbind]
    simp only [Py.ok_bind, filter_apiLog]
    rfl
  · have hname := hpeer peer rfl
    rw [apiListWith, bindText_of_isSome hcallsign, Py.ok_bind, hbind, Py.ok_bind,
      bindText_of_isSome hname]
    simp only [Py.ok_bind, Bool.and_assoc, filter_apiLog, beyond, listed, List.filter_filter]
    rfl

end Pages

/-! ### Names -/

theorem ValidCallsign.encodable {value : Str} (h : ValidCallsign value) :
    (encodeUtf8 value).isSome := by
  obtain ⟨data, hdata⟩ := h
  exact callsignBytes_encodable hdata

/-- Every name that is encodable has identifiers. -/
theorem exists_messageId {recipient : Str} (h : (encodeUtf8 recipient).isSome) (sequence : ℕ) :
    ∃ id, messageId recipient sequence = .ok id := by
  obtain ⟨data, hdata⟩ := Option.isSome_iff_exists.mp h
  obtain ⟨cs, rfl⟩ := scalars_of_encodeUtf8 hdata
  have htext : cs.map PyChar.scalar ++ .scalar ':' :: decimalDigits sequence =
      (cs ++ ':' :: Nat.toDigits 10 sequence).map .scalar := by
    rw [List.map_append, List.map_cons, decimalDigits]
  rw [messageId, htext, encodeBody_eq_ok.mpr (encodeUtf8_scalars _)]
  exact ⟨_, rfl⟩

/-- Whoever can log in has a valid callsign. -/
theorem authenticate_valid {store : AccountStore} {name password callsign : Str}
    {accounts : Accounts} (h : store.authenticate name password accounts = .ok callsign) :
    ValidCallsign callsign := by
  obtain ⟨secret, -, h⟩ := Py.bind_eq_ok.mp h
  have hlast : ∀ (normalized : Str) (valid : Py Bool), (do
      let valid ← valid
      raiseIf (valid = false) invalidCredentials
      return normalized : Py Str) = .ok callsign → normalized = callsign := by
    intro normalized valid hreturn
    obtain ⟨_, -, hreturn⟩ := Py.bind_eq_ok.mp hreturn
    obtain ⟨_, -, hreturn⟩ := Py.bind_eq_ok.mp hreturn
    exact Except.ok.inj hreturn
  dsimp only at h
  split at h
  · next normalized hname =>
    have hvalid := UnicodeTables.normalizeCallsign_valid hname
    rw [Py.ok_bind] at h
    split at h
    · exact hlast _ _ h ▸ hvalid
    · split at h
      · exact hlast _ (.ok _) h ▸ hvalid
      · split at h
        · exact hlast _ _ h ▸ hvalid
        · cases h
  · have hvalid : ValidCallsign (str "N0NONE") := (validateCallsign_iff "callsign").mp (by decide)
    split at h
    · rw [Py.ok_bind] at h
      split at h
      · exact hlast _ _ h ▸ hvalid
      · split at h
        · exact hlast _ (.ok _) h ▸ hvalid
        · split at h
          · exact hlast _ _ h ▸ hvalid
          · cases h
    · cases h

theorem LoggedIn.valid {inputs : List (Input τ)} {callsign : Str} {issued : ℤ}
    (h : LoggedIn api outside inputs callsign issued) : ValidCallsign callsign := by
  obtain ⟨earlier, name, password, later, -, hauthenticate⟩ := h.login
  exact authenticate_valid hauthenticate

theorem peer_encodable {peer peer' : Option Str} (h : api.peer peer = .ok peer') :
    ∀ name ∈ peer', (encodeUtf8 name).isSome := by
  rcases peer with _ | value
  · obtain rfl := Except.ok.inj h
    intro name hname
    cases hname
  · rw [APISetup.peer] at h
    split at h
    · next normalized hnormalized =>
      obtain rfl := Except.ok.inj h
      intro name hname
      obtain rfl := Option.some.inj hname
      exact ValidCallsign.encodable (UnicodeTables.normalizeCallsign_valid hnormalized)
    · split at h
      · cases h
      · cases h

/-! ### A client that follows the cursors -/

/-- What a client has received is the listing up to its cursor. -/
structure Received (api : APISetup ω τ) (callsign : Str) (peer : Option Str) (t : Tables)
    (received : List APIMessage) (cursor : Option τ) : Prop where
  progress : ∃ (position : ℤ) (rows : List ((Str × ℕ) × MessageRow)),
    (0 ≤ position ∧ position ≤ t.apiMessageSequence) ∧
    (cursor = none ∧ position = 0 ∨
      cursor = some (api.signer.cursors.cursor callsign position "page")) ∧
    (⟨position, rows⟩ : Reader _ ℤ).Complete apiPosition 0 (listed t callsign peer) ∧
    List.Forall₂ APIMessage.Shows received rows

section Reading

variable {t t' : Tables} {callsign : Str} {peer peer' : Option Str} {received : List APIMessage}
  {cursor next : Option τ} {d : Database} {messages : List APIMessage}

theorem Received.start (t : Tables) : Received api callsign peer t [] none where
  progress := ⟨0, [], ⟨le_rfl, Int.natCast_nonneg _⟩, .inl ⟨rfl, rfl⟩,
    Reader.Complete.initial _ _ _, .nil⟩

/-- Others send. -/
theorem Received.grow (hreceived : Received api callsign peer t received cursor) (h : Stored t)
    (h' : Stored t') (hkept : t.messages.entries <+: t'.messages.entries) :
    Received api callsign peer t' received cursor where
  progress := by
    obtain ⟨position, rows, ⟨hpos, hle⟩, hcursor, hcomplete, hrows⟩ := hreceived.progress
    obtain ⟨later, hlisted, hlater⟩ := listed_extends h h' hkept callsign peer
    have hapi : t.apiMessageSequence ≤ t'.apiMessageSequence := by
      rw [← h.consistent.contiguous_api.length_eq, ← h'.consistent.contiguous_api.length_eq]
      exact hkept.length_le
    refine ⟨position, rows, ⟨hpos, hle.trans (Int.ofNat_le.mpr hapi)⟩, hcursor, ?_, hrows⟩
    rw [hlisted]
    exact hcomplete.grow fun e he => lt_of_le_of_lt hle (hlater e he)

/-- The cursor is accepted. -/
theorem Received.after (hreceived : Received api callsign peer t received cursor) :
    ∃ (position : ℤ) (rows : List ((Str × ℕ) × MessageRow)),
      api.after cursor callsign "page" = .ok position ∧
      (0 ≤ position ∧ position ≤ t.apiMessageSequence) ∧
      (⟨position, rows⟩ : Reader _ ℤ).Complete apiPosition 0 (listed t callsign peer) ∧
      List.Forall₂ APIMessage.Shows received rows := by
  obtain ⟨position, rows, hbounds, hcursor, hcomplete, hrows⟩ := hreceived.progress
  refine ⟨position, rows, ?_, hbounds, hcomplete, hrows⟩
  rcases hcursor with ⟨rfl, rfl⟩ | rfl
  · rfl
  · rw [APISetup.after, api.signer.cursors.cursorValue_cursor callsign hbounds.1 "page"]
    rfl

/-- What a client has received after a page. -/
structure PageRead (api : APISetup ω τ) (callsign : Str) (peer : Option Str) (t : Tables)
    (limit : ℤ) (received messages : List APIMessage) (next : Option τ) : Prop where
  /-- The first messages of the listing, in their order, and at the last page all of them. -/
  rows : ∃ rows, rows <+: listed t callsign peer ∧
    List.Forall₂ APIMessage.Shows (received ++ messages) rows ∧
    (next = none → rows = listed t callsign peer)
  /-- A page that is not the last one is full. -/
  full : next ≠ none → messages.length = limit
  received : next ≠ none → Received api callsign peer t (received ++ messages) next

/-- The rows up to a cursor are the first ones. -/
theorem prefix_of_complete (h : Stored t) {position : ℤ} (hle : position ≤ t.apiMessageSequence)
    {rows : List ((Str × ℕ) × MessageRow)}
    (hcomplete : (⟨position, rows⟩ : Reader _ ℤ).Complete apiPosition 0
      (listed t callsign peer)) : rows <+: listed t callsign peer := by
  have hall : segment apiPosition (listed t callsign peer) 0 t.apiMessageSequence =
      listed t callsign peer :=
    List.filter_eq_self.mpr fun e he => decide_eq_true (h.position_le he)
  have hsplit := segment_append_segment (h.ascending_listed callsign peer) hcomplete.first_le hle
  rw [hall] at hsplit
  rw [show rows = _ from hcomplete.items_eq]
  exact ⟨_, hsplit⟩

/-- The messages of a page show its rows, in their order. -/
theorem forall₂_shows {rows : List ((Str × ℕ) × MessageRow)} {values : List StoredMessage}
    (hvalues : List.Forall₂ (fun e value => storedMessage e = .ok value) rows values)
    (hmessages : values.mapM (project d) = .ok messages) :
    List.Forall₂ APIMessage.Shows messages rows := by
  have hprojects := Py.mapM_eq_ok.mp hmessages
  clear hmessages
  induction hvalues generalizing messages with
  | nil =>
    obtain rfl := List.forall₂_nil_left_iff.mp hprojects
    exact .nil
  | cons hstored _ ih =>
    obtain ⟨message, rest, hproject, hrest, rfl⟩ := List.forall₂_cons_left_iff.mp hprojects
    exact .cons (shows_of_project hstored hproject) (ih hrest)

/-- One item more than a page: the page is full. -/
theorem length_page_of_lt {log : List ((Str × ℕ) × MessageRow)} {position : ℤ} {n : ℕ}
    (h : n < (page apiPosition log position (n + 1)).length) :
    (page apiPosition log position n).length = n := by
  rw [page, List.length_take] at h ⊢
  omega

/-- The position of the last message of a page is the cursor after it. -/
theorem cursorAfter_values {rows : List ((Str × ℕ) × MessageRow)} {values : List StoredMessage}
    (hvalues : List.Forall₂ (fun e value => storedMessage e = .ok value) rows values)
    (position : ℤ) {last : StoredMessage} (hlast : values.getLast? = some last) :
    cursorAfter apiPosition position rows = last.apiSequence := by
  have hpositions : List.Forall₂ (fun e (value : StoredMessage) =>
      apiPosition e = (value.apiSequence : ℤ)) rows values :=
    hvalues.imp fun _ _ hvalue => (storedMessage_apiSequence hvalue).symm
  rw [cursorAfter_congr hpositions, cursorAfter, hlast]
  rfl

/-- A page continues what the client has received. -/
theorem Received.pageRead (hreceived : Received api callsign peer' d.toTables received cursor)
    (h : Stored d.toTables) (hcallsign : (encodeUtf8 callsign).isSome)
    (hpeer : api.peer peer = .ok peer') {limit : ℤ}
    (hread : api.listMessages callsign limit cursor peer d = .ok (.page messages next)) :
    PageRead api callsign peer' d.toTables limit received messages next := by
  obtain ⟨position, rows, hafter, ⟨hpos, hle⟩, hcomplete, hrows⟩ := hreceived.after
  obtain ⟨⟨hmin, -⟩, after, peer'', values, more, messages', hafter', hpeer', hlist, hmessages,
    hpage⟩ := listMessages_eq_ok hread
  obtain rfl := Except.ok.inj (hafter.symm.trans hafter')
  obtain rfl := Except.ok.inj (hpeer.symm.trans hpeer')
  obtain ⟨values', hvalues, hlist'⟩ :=
    apiListWith_page h hcallsign (peer_encodable hpeer) hpos hle limit.toNat
  obtain ⟨rfl, rfl⟩ := Prod.mk.inj (Except.ok.inj (hlist'.symm.trans hlist))
  obtain ⟨rfl, hnext⟩ := Response.page.inj hpage
  have hascending := h.ascending_listed callsign peer'
  have hcomplete' := hcomplete.advance hascending limit.toNat
  have hle' : cursorAfter apiPosition position (page apiPosition
      (listed d.toTables callsign peer') position limit.toNat) ≤ d.apiMessageSequence := by
    rcases cursorAfter_eq_or apiPosition position (page apiPosition
      (listed d.toTables callsign peer') position limit.toNat) with heq | ⟨e, he, heq⟩
    · rw [heq]
      exact hle
    · rw [heq]
      exact (h.position_le (page_subset_beyond he).1).2
  have hshows := List.rel_append hrows (forall₂_shows hvalues hmessages)
  have hprefix := prefix_of_complete h hle' hcomplete'
  by_cases hmore : limit.toNat <
      (page apiPosition (listed d.toTables callsign peer') position (limit.toNat + 1)).length
  · -- There is more: the page is full, and the cursor is that of its last message.
    have hlength := length_page_of_lt hmore
    have hvaluesLength := hvalues.length_eq
    obtain ⟨last, hlast⟩ : ∃ last, values'.getLast? = some last := by
      refine Option.isSome_iff_exists.mp (List.getLast?_isSome.mpr fun hnil => ?_)
      rw [hnil, hlength, List.length_nil] at hvaluesLength
      omega
    rw [if_pos (decide_eq_true hmore), hlast, Option.map_some] at hnext
    have hmessagesLength := (Py.mapM_eq_ok.mp hmessages).length_eq
    subst hnext
    refine ⟨⟨_, hprefix, hshows, fun hnone => by cases hnone⟩, fun _ => ?_, fun _ =>
      ⟨⟨_, _, ⟨hcomplete'.first_le, hle'⟩, .inr ?_, hcomplete', hshows⟩⟩⟩
    · rw [← hmessagesLength, ← hvaluesLength, hlength]
      omega
    · rw [cursorAfter_values hvalues position hlast]
  · -- Nothing is behind the page.
    rw [if_neg (by simpa using hmore)] at hnext
    subst hnext
    refine ⟨⟨_, hprefix, hshows, fun _ => ?_⟩, fun hsome => absurd rfl hsome, fun hsome =>
      absurd rfl hsome⟩
    refine hcomplete'.all (fun e he => (h.position_le he).1) fun e he => ?_
    by_contra hlt
    exact hmore ((lt_length_page_iff hascending position limit.toNat).mpr
      ⟨e, he, not_le.mp hlt⟩)

/-- A message that is stored can be shown. -/
theorem exists_project (h : Stored d.toTables) {e : (Str × ℕ) × MessageRow}
    (he : e ∈ d.messages.entries) {value : StoredMessage} (hvalue : storedMessage e = .ok value) :
    ∃ message, project d value = .ok message := by
  obtain ⟨state, hstate⟩ := h.exists_state he hvalue
  obtain ⟨-, -, -, hr, -⟩ := storedMessage_eq_ok hvalue
  obtain ⟨id, hid⟩ := exists_messageId (hr ▸ h.consistent.recipients_encodable e he) value.sequence
  rw [project, hstate, Py.ok_bind]
  dsimp only
  rw [hid]
  exact ⟨_, rfl⟩

/-- The next page is answered. -/
theorem Received.exists_page (hreceived : Received api callsign peer' d.toTables received cursor)
    (h : Stored d.toTables) (hcallsign : (encodeUtf8 callsign).isSome)
    (hpeer : api.peer peer = .ok peer') {limit : ℤ} (hlimit : 1 ≤ limit ∧ limit ≤ 200) :
    ∃ messages next, api.listMessages callsign limit cursor peer d = .ok (.page messages next) := by
  obtain ⟨position, rows, hafter, ⟨hpos, hle⟩, -⟩ := hreceived.after
  obtain ⟨values, hvalues, hlist⟩ :=
    apiListWith_page h hcallsign (peer_encodable hpeer) hpos hle limit.toNat
  obtain ⟨messages, -, hmessages⟩ := Py.exists_mapM (f := project d) (l := values)
    fun value hvalue => by
      obtain ⟨e, he, hstored⟩ := Py.exists_of_mem_forall₂ hvalues hvalue
      have he := (page_subset_beyond he).1
      exact exists_project h ((listed_sublist d.toTables callsign peer').subset he) hstored
  rw [APISetup.listMessages, if_neg (not_not.mpr hlimit), hafter, hpeer]
  show ∃ messages next,
    (ofPy (apiListWith callsign position limit.toNat peer' d.toTables) >>= _) = _
  rw [hlist]
  show ∃ messages next, (ofPy (values.mapM (project d)) >>= _) = _
  rw [hmessages]
  exact ⟨_, _, rfl⟩

end Reading

/-- A client that has read some pages, but not yet the last one: what it has received, and its
cursor. -/
inductive Listing (api : APISetup ω τ) (outside : ω) (callsign : Str) (peer : Option Str) :
    List (Input τ) → List APIMessage → Option τ → Prop
  /-- It begins at any time, without a cursor. -/
  | start (inputs : List (Input τ)) : Listing api outside callsign peer inputs [] none
  /-- Others go on. -/
  | other {inputs : List (Input τ)} {received : List APIMessage} {cursor : Option τ}
      (h : Listing api outside callsign peer inputs received cursor) (input : Input τ) :
      Listing api outside callsign peer (inputs ++ [input]) received cursor
  /-- It asks with its cursor, and is answered with another one. -/
  | page {inputs : List (Input τ)} {received : List APIMessage} {cursor : Option τ}
      (h : Listing api outside callsign peer inputs received cursor) {call : APICall τ} {limit : ℤ}
      {messages : List APIMessage} {next : τ}
      (request : call.request = .listMessages limit cursor peer)
      (user : api.user call.credentials call.now = .ok callsign)
      (answer : (api.respond call (serverAfter api outside inputs)).1 =
        .ok (.page messages (some next))) :
      Listing api outside callsign peer (inputs ++ [.request call]) (received ++ messages)
        (some next)

section Running

variable {callsign : Str} {peer peer' : Option Str} {inputs : List (Input τ)}
  {received : List APIMessage} {cursor : Option τ} {call : APICall τ} {limit : ℤ}

theorem serve_listMessages (hrequest : call.request = .listMessages limit cursor peer)
    (s : APINode ω τ) : api.serve callsign call s =
      (api.listMessages callsign limit cursor peer s.database, s) := by
  rw [APISetup.serve, hrequest]

/-- Whatever goes on in between, the client has received the listing up to its cursor. -/
theorem Listing.progress (h : Listing api outside callsign peer inputs received cursor)
    (hcallsign : (encodeUtf8 callsign).isSome) (hpeer : api.peer peer = .ok peer') :
    Received api callsign peer' (serverAfter api outside inputs).node.tables received cursor := by
  induction h with
  | start inputs => exact Received.start _
  | @other inputs received cursor h input ih =>
    have hbefore : Stored (serverAfter api outside inputs).node.tables := serverAfter_stored inputs
    obtain ⟨hstored, hextends⟩ := step_stored hbefore input
    rw [serverAfter_concat]
    exact ih.grow hbefore hstored hextends.kept.1
  | @page inputs received cursor h call limit messages next request user answer ih =>
    obtain ⟨callsign', presence, huser, hserve, hnode⟩ := respond_eq_ok answer
    obtain rfl := Except.ok.inj (user.symm.trans huser)
    rw [serve_listMessages request] at hserve hnode
    have hread := Received.pageRead (d := (serverAfter api outside inputs).database) ih
      (serverAfter_stored inputs) hcallsign hpeer hserve
    have htables : (step api (serverAfter api outside inputs) (.request call)).node.tables =
        (serverAfter api outside inputs).node.tables := by
      show (api.respond call _).2.node.tables = _
      rw [hnode]
      rfl
    rw [serverAfter_concat, htables]
    exact hread.received (by simp)

/-- **A listing is complete.** In every run in which nobody presents a forged access token, with
anything in between: when a client that follows the cursors asks for the next page, with any limit,
it is answered. What it has received by then are the first messages of the listing, which is that
with its peer or that with all, each of them once and in order. A page with a cursor is full, and
with a page without one the client has received all messages that are there. -/
theorem pages_complete (hgenuine : Genuine api outside (inputs ++ [.request call]))
    (hlisting : Listing api outside callsign peer inputs received cursor)
    (hrequest : call.request = .listMessages limit cursor peer)
    (huser : api.user call.credentials call.now = .ok callsign)
    (hlimit : 1 ≤ limit ∧ limit ≤ 200) (hpeer : api.peer peer = .ok peer') :
    ∃ messages next, (api.respond call (serverAfter api outside inputs)).1 =
        .ok (.page messages next) ∧
      (∃ rows, rows <+: listed (serverAfter api outside inputs).node.tables callsign peer' ∧
        List.Forall₂ APIMessage.Shows (received ++ messages) rows ∧
        (next = none →
          rows = listed (serverAfter api outside inputs).node.tables callsign peer')) ∧
      (next ≠ none → messages.length = limit) := by
  obtain ⟨issued, hlogin, -⟩ := loggedIn_of_user hgenuine rfl huser
  have hcallsign := ValidCallsign.encodable hlogin.valid
  have hstored : Stored (serverAfter api outside inputs).database.toTables :=
    serverAfter_stored inputs
  have hreceived : Received api callsign peer' (serverAfter api outside inputs).database.toTables
    received cursor := hlisting.progress hcallsign hpeer
  obtain ⟨messages, next, hpage⟩ := hreceived.exists_page hstored hcallsign hpeer hlimit
  have hread := hreceived.pageRead hstored hcallsign hpeer hpage
  refine ⟨messages, next, ?_, hread.rows, hread.full⟩
  rw [respond_of_valid (serverAfter_owned inputs) hlogin.valid huser, serve_listMessages hrequest]
  exact hpage

end Running

theorem genuine_sampleList :
    Genuine plainAPI () (sampleLogin ++ [.request sampleSend] ++ [.request sampleList]) := by
  have hissued : (serverAfter plainAPI () (sampleLogin ++ [.request sampleSend])).issued =
      [plainAPI.access (str "EA1ABC") 1000] := by decide +kernel
  refine genuine_sampleSend.concat ?_
  rintro call token ⟨⟩ htoken
  left
  rw [hissued]
  exact List.mem_singleton.mpr (Option.some.inj htoken).symm

theorem pages_complete_sampleList : ∃ messages next,
    (plainAPI.respond sampleList
      (serverAfter plainAPI () (sampleLogin ++ [.request sampleSend]))).1 =
        .ok (.page messages next) ∧
    ∃ rows, rows <+: listed (serverAfter plainAPI ()
      (sampleLogin ++ [.request sampleSend])).node.tables (str "EA1ABC") none ∧
      List.Forall₂ APIMessage.Shows messages rows := by
  obtain ⟨messages, next, hpage, ⟨rows, hrows, hshows, -⟩, -⟩ := pages_complete
    genuine_sampleList (Listing.start _) rfl rfl (by decide) rfl
  exact ⟨messages, next, hpage, rows, hrows, hshows⟩

end Api

end OpenQSP
