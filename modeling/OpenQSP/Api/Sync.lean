import OpenQSP.Lib.Runs
import OpenQSP.Storage.Conversations

/-!
# Synchronization over the Internet

A client of the HTTP API calls `/sync` again and again, each time with the cursor of the previous
answer. A call reads the high-water value of the API sequence and then, in another transaction, one
page of the messages to or from the account; anything may be stored before, between and after these
reads. A page that is not empty moves the cursor to its last message, an empty one to the high-water
value. That value was read first, so whatever an empty page did not show is beyond it.

The cursor is a signed token. Of the signer only one thing is used, that it reads what it signed.

## Main definitions

* `Signer`, `Signer.cursor`, `Signer.cursorValue`
* `ApiChain`, `ApiEvent`, `ApiChain.step` — a chain of calls among the calls of the stores

## Main results

* `apiList_ok` — one page
* `ApiChain.Invariant.step` — what one read or store keeps
* **`sync_lossless`** — what holds in every state of a chain
-/

namespace OpenQSP

open Tables

/-- What a signed token says. -/
structure CursorClaims where
  kind : String
  sub : Str
  seq : ℤ
  deriving DecidableEq

/-- Signing and verifying tokens of a type `τ`. -/
structure Signer (τ : Type) where
  sign : CursorClaims → τ
  read : τ → Option CursorClaims
  /-- A token that was signed is read back. -/
  read_sign : ∀ claims, read (sign claims) = some claims

structure APIError where
  status : ℕ
  code : String
  message : String
  deriving DecidableEq

def invalidCursor : APIError := ⟨400, "invalid_request", "Invalid cursor."⟩

section Cursors

variable {τ : Type} (signer : Signer τ)

def Signer.cursor (callsign : Str) (sequence : ℤ) (kind : String) : τ :=
  signer.sign ⟨kind, callsign, sequence⟩

/-- The sequence in a cursor, which must be of this kind and for this account. -/
def Signer.cursorValue (token : τ) (callsign : Str) (kind : String) : Except APIError ℤ :=
  match signer.read token with
  | none => .error invalidCursor
  | some data =>
    if data.kind ≠ kind ∨ data.sub ≠ callsign ∨ data.seq < 0 then .error invalidCursor
    else .ok data.seq

theorem Signer.cursorValue_cursor (callsign : Str) {sequence : ℤ} (h : 0 ≤ sequence)
    (kind : String) :
    signer.cursorValue (signer.cursor callsign sequence kind) callsign kind = .ok sequence := by
  simp only [cursorValue, cursor, signer.read_sign]
  rw [if_neg]
  rintro (hkind | hsub | hseq)
  · exact hkind rfl
  · exact hsub rfl
  · exact absurd h (not_le.mpr hseq)

end Cursors

/-! ### A chain of calls -/

/-- A call of `/sync` between its two reads: where it continues, and the high-water value. -/
structure SyncCall where
  after : ℤ
  high : ℕ

/-- How a call of `/sync` ended. -/
inductive SyncResponse (τ : Type)
  | page (messages : List StoredMessage) (cursor : τ)
  | rejected (error : APIError)
  | raised (error : PyError)

/-- The messages of an answer. -/
def SyncResponse.messages {τ : Type} : SyncResponse τ → List StoredMessage
  | page messages _ => messages
  | _ => []

/-- The database, and a client that calls `/sync`. -/
structure ApiChain (τ : Type) where
  tables : Tables
  /-- The cursor of the last answer. -/
  cursor : Option τ
  /-- The call that has made its first read. -/
  call : Option SyncCall
  responses : List (SyncResponse τ)

/-- Somebody calls a store, or a call of `/sync` makes one of its reads. -/
inductive ApiEvent
  | store (call : DatabaseCall)
  | readHigh
  | readPage

/-- The number of messages that `/sync` asks for. -/
def syncLimit : ℕ := 200

namespace ApiChain

variable {τ : Type} (signer : Signer τ) (callsign : Str)

/-- Where the next call continues. -/
def after (s : ApiChain τ) : Except APIError ℤ :=
  match s.cursor with
  | none => .ok 0
  | some token => signer.cursorValue token callsign "sync"

/-- `sync` up to its first read, with the cursor of the previous answer. -/
def readHigh (s : ApiChain τ) : ApiChain τ :=
  match s.after signer callsign with
  | .error e => { s with responses := s.responses ++ [.rejected e] }
  | .ok after =>
    let high := apiHighWater s.tables
    if (high : ℤ) < after then { s with responses := s.responses ++ [.rejected invalidCursor] }
    else { s with call := some ⟨after, high⟩ }

/-- The rest of `sync`. -/
def readPage (call : SyncCall) (s : ApiChain τ) : ApiChain τ :=
  match apiList callsign call.after syncLimit s.tables with
  | .error e => { s with call := none, responses := s.responses ++ [.raised e] }
  | .ok (values, _) =>
    let position : ℤ := match values.getLast? with
      | some last => last.apiSequence
      | none => call.high
    let cursor := signer.cursor callsign position "sync"
    { s with cursor := some cursor, call := none, responses := s.responses ++ [.page values
      cursor] }

/-- One event. The calls of a chain follow each other. -/
def step (s : ApiChain τ) : ApiEvent → ApiChain τ
  | .store call => { s with tables := call.next s.tables }
  | .readHigh => match s.call with
    | none => s.readHigh signer callsign
    | some _ => s
  | .readPage => match s.call with
    | none => s
    | some call => s.readPage signer callsign call

/-- All messages that were returned, in order. -/
def received (s : ApiChain τ) : List StoredMessage := s.responses.flatMap SyncResponse.messages

/-- The state after the first `i` events of a chain, whose first call has no cursor. -/
def stateAt (t : Tables) (events : List ApiEvent) (i : ℕ) : ApiChain τ :=
  OpenQSP.stateAt (step signer callsign) ⟨t, none, none, []⟩ events i

end ApiChain

/-! ### One page -/

section Page

variable {t t' : Tables} {callsign : Str}

theorem Tables.Consistent.mem_entries_of_apiLog {e : (Str × ℕ) × MessageRow}
    (he : e ∈ t.apiLog callsign) : e ∈ t.messages.entries := (List.mem_filter.mp he).1

/-- No message is beyond the high-water value. -/
theorem Tables.Consistent.apiPosition_le (h : t.Consistent) {e : (Str × ℕ) × MessageRow}
    (he : e ∈ t.apiLog callsign) : 0 < apiPosition e ∧ apiPosition e ≤ t.apiMessageSequence := by
  obtain ⟨hpos, hle⟩ := h.contiguous_api.le (Consistent.mem_entries_of_apiLog he)
  exact ⟨Int.ofNat_lt.mpr hpos, Int.ofNat_le.mpr hle⟩

theorem Tables.Grows.api_le (hgrows : t.Grows t') (h : t.Consistent) (h' : t'.Consistent) :
    t.apiMessageSequence ≤ t'.apiMessageSequence := by
  rw [← h.contiguous_api.length_eq, ← h'.contiguous_api.length_eq]
  exact hgrows.messages.length_le

theorem storedMessage_apiSequence {e : (Str × ℕ) × MessageRow} {message : StoredMessage}
    (h : storedMessage e = .ok message) : (message.apiSequence : ℤ) = apiPosition e := by
  obtain ⟨sequence, -, h⟩ := Py.bind_eq_ok.mp h
  obtain ⟨createdAt, -, h⟩ := Py.bind_eq_ok.mp h
  split at h
  · cases h
  · rw [← Except.ok.inj h]
    rfl

/-- One page of the messages to or from an account. -/
theorem apiList_ok (h : t.Sound) (hcallsign : (encodeUtf8 callsign).isSome) {after : ℤ}
    (hpos : 0 ≤ after) (hafter : after ≤ t.apiMessageSequence) (limit : ℕ) :
    ∃ values, List.Forall₂ (fun e message => storedMessage e = .ok message)
        (page apiPosition (t.apiLog callsign) after limit) values ∧
      apiList callsign after limit t = .ok (values,
        decide (limit < (page apiPosition (t.apiLog callsign) after (limit + 1)).length)) := by
  obtain ⟨values, hvalues, hmapM⟩ := Py.exists_mapM (f := storedMessage)
    (l := page apiPosition (t.apiLog callsign) after limit) fun e he =>
      h.messages.readable e (Consistent.mem_entries_of_apiLog (page_subset_beyond he).1)
  have hfilter : (t.messages.entries.filter fun e =>
      (e.2.author = callsign || e.1.1 = callsign) && after < (e.2.apiSequence : ℤ)) =
        beyond apiPosition (t.apiLog callsign) after := by
    rw [beyond, Tables.apiLog, List.filter_filter]
    exact List.filter_congr fun e _ => Bool.and_comm _ _
  have hsorted : (beyond apiPosition (t.apiLog callsign) after).Pairwise
      fun e e' => e.2.apiSequence ≤ e'.2.apiSequence :=
    (h.messages.ascending_apiLog callsign).beyond.imp fun hlt => (Int.ofNat_lt.mp hlt).le
  have htake : ((beyond apiPosition (t.apiLog callsign) after).take (limit + 1)).take limit =
      page apiPosition (t.apiLog callsign) after limit := by
    rw [List.take_take, Nat.min_eq_left (Nat.le_succ _), page]
  have hbind : bindInteger after = .ok after := by
    have hmax : after ≤ maxSqliteInteger := hafter.trans (by exact_mod_cast h.api_le)
    rw [bindInteger, if_pos ⟨by omega, hmax⟩]
  refine ⟨values, hvalues, ?_⟩
  simp only [apiList, bindText_of_isSome hcallsign, hbind, Py.ok_bind, hfilter,
    hsorted.insertionSort_eq, htake, hmapM]
  rfl

end Page

/-! ### What holds along a chain -/

namespace ApiChain

variable {τ : Type} {signer : Signer τ} {callsign : Str}

/-- What holds in every state of a chain. -/
structure Invariant (signer : Signer τ) (callsign : Str) (s : ApiChain τ) : Prop where
  sound : s.tables.Sound
  /-- Where the next call continues; everything up to there was returned. -/
  progress : ∃ position : ℤ, 0 ≤ position ∧ position ≤ s.tables.apiMessageSequence ∧
    (s.cursor = none ∧ position = 0 ∨ s.cursor = some (signer.cursor callsign position "sync")) ∧
    (∀ call ∈ s.call, call.after = position ∧ position ≤ call.high ∧
      call.high ≤ s.tables.apiMessageSequence) ∧
    ∃ rows, (⟨position, rows⟩ : Reader _ ℤ).Complete apiPosition 0 (s.tables.apiLog callsign) ∧
      List.Forall₂ (fun e message => storedMessage e = .ok message) rows s.received
  /-- Every call returned a page, with a cursor that is still valid. -/
  pages : ∀ response ∈ s.responses, ∃ messages, ∃ position : ℤ,
    response = .page messages (signer.cursor callsign position "sync") ∧
      0 ≤ position ∧ position ≤ s.tables.apiMessageSequence

theorem Invariant.initial (signer : Signer τ) (callsign : Str) {t : Tables} (h : t.Sound) :
    Invariant signer callsign ⟨t, none, none, []⟩ where
  sound := h
  progress := ⟨0, le_rfl, Int.natCast_nonneg _, .inl ⟨rfl, rfl⟩, nofun, [],
    Reader.Complete.initial _ _ _, .nil⟩
  pages := nofun

/-- Something is stored. -/
theorem Invariant.store {s : ApiChain τ} (h : Invariant signer callsign s) (call : DatabaseCall) :
    Invariant signer callsign { s with tables := call.next s.tables } := by
  obtain ⟨hsound, hgrows⟩ := call.next_spec h.sound
  obtain ⟨position, hpos, hle, hcursor, hcall, rows, hcomplete, hrows⟩ := h.progress
  obtain ⟨later, hlog, hlater⟩ := hgrows.apiLog h.sound.messages hsound.messages callsign
  have hapi := hgrows.api_le h.sound.messages hsound.messages
  have hapi' : (s.tables.apiMessageSequence : ℤ) ≤ (call.next s.tables).apiMessageSequence := by
    exact_mod_cast hapi
  refine ⟨hsound, ⟨position, hpos, hle.trans hapi', hcursor, fun c hc => ?_, rows, ?_, hrows⟩,
    fun response hresponse => ?_⟩
  · obtain ⟨hafter, hhigh, hhigh'⟩ := hcall c hc
    exact ⟨hafter, hhigh, hhigh'.trans hapi⟩
  · show Reader.Complete apiPosition 0 ((call.next s.tables).apiLog callsign) _
    rw [hlog]
    exact hcomplete.grow fun e he => lt_of_le_of_lt hle (hlater e he)
  · obtain ⟨messages, position, hpage, hpos, hle⟩ := h.pages response hresponse
    exact ⟨messages, position, hpage, hpos, hle.trans hapi'⟩

/-- A call begins: its cursor is not ahead. -/
theorem Invariant.readHigh {s : ApiChain τ} (h : Invariant signer callsign s) :
    Invariant signer callsign (s.readHigh signer callsign) ∧
      (s.readHigh signer callsign).tables = s.tables := by
  obtain ⟨position, hpos, hle, hcursor, hcall, rows, hcomplete, hrows⟩ := h.progress
  have hafter : s.after signer callsign = .ok position := by
    rw [after]
    rcases hcursor with ⟨hnone, rfl⟩ | hsome
    · rw [hnone]
    · rw [hsome]
      exact signer.cursorValue_cursor callsign hpos "sync"
  have hrun : s.readHigh signer callsign =
      { s with call := some ⟨position, apiHighWater s.tables⟩ } := by
    rw [ApiChain.readHigh, hafter]
    exact if_neg (not_lt.mpr hle)
  rw [hrun]
  refine ⟨⟨h.sound, ⟨position, hpos, hle, hcursor, fun c hc => ?_, rows, hcomplete, hrows⟩,
    h.pages⟩,
    rfl⟩
  obtain rfl := Option.some.inj hc
  exact ⟨rfl, hle, le_rfl⟩

/-- A call ends with a page. -/
theorem Invariant.readPage (hcallsign : (encodeUtf8 callsign).isSome) {s : ApiChain τ}
    (h : Invariant signer callsign s) {call : SyncCall} (hcall : s.call = some call) :
    ∃ values cursor,
      s.readPage signer callsign call =
        { s with cursor := some cursor, call := none, responses := s.responses ++ [.page values
          cursor] } ∧
      Invariant signer callsign (s.readPage signer callsign call) ∧
      (values.length < syncLimit → List.Forall₂ (fun e message => storedMessage e = .ok message)
        (s.tables.apiLog callsign) (s.received ++ values)) := by
  obtain ⟨position, hpos, hle, -, hprogress, rows, hcomplete, hrows⟩ := h.progress
  obtain ⟨hafter, hhigh, hhigh'⟩ := hprogress call hcall
  obtain ⟨values, hvalues, hlist⟩ := apiList_ok h.sound hcallsign hpos hle syncLimit
  have hlog := h.sound.messages.ascending_apiLog callsign
  set rows' := page apiPosition (s.tables.apiLog callsign) position syncLimit with hrows'
  -- The new cursor, and what the client has received up to it.
  obtain ⟨position', hposition', hge, hle', hcomplete'⟩ : ∃ position' : ℤ,
      values.getLast?.elim (call.high : ℤ) (fun last => (last.apiSequence : ℤ)) = position' ∧
      cursorAfter apiPosition position rows' ≤ position' ∧
      position' ≤ s.tables.apiMessageSequence ∧
      (⟨position', rows ++ rows'⟩ : Reader _ ℤ).Complete apiPosition 0
        (s.tables.apiLog callsign) := by
    rcases List.eq_nil_or_concat' values with rfl | ⟨init, last, rfl⟩
    · have hnil : rows' = [] := List.forall₂_nil_right_iff.mp hvalues
      rw [hnil, List.append_nil]
      refine ⟨call.high, rfl, hhigh, by exact_mod_cast hhigh',
        hcomplete.skip hhigh fun e he hlt => ?_⟩
      have hbeyond : e ∈ beyond apiPosition (s.tables.apiLog callsign) position :=
        mem_beyond.mpr ⟨he, hlt⟩
      rw [hrows', page, List.take_eq_nil_iff] at hnil
      rcases hnil with hzero | hnil
      · cases hzero
      · rw [hnil] at hbeyond
        cases hbeyond
    · have hcursor : cursorAfter apiPosition position rows' = last.apiSequence := by
        have hpositions : List.Forall₂
            (fun e (message : StoredMessage) => apiPosition e = (message.apiSequence : ℤ)) rows'
            (init ++ [last]) :=
          hvalues.imp fun _ _ hmessage => (storedMessage_apiSequence hmessage).symm
        rw [cursorAfter_congr hpositions]
        exact cursorAfter_concat last
      refine ⟨cursorAfter apiPosition position rows', ?_, le_rfl, ?_,
        hcomplete.advance hlog syncLimit⟩
      · rw [List.getLast?_concat, Option.elim_some, hcursor]
      · rcases cursorAfter_eq_or apiPosition position rows' with heq | ⟨e, he, heq⟩
        · rw [heq]
          exact hle
        · rw [heq]
          exact (h.sound.messages.apiPosition_le (page_subset_beyond he).1).2
  have hrun : s.readPage signer callsign call =
      { s with
        cursor := some (signer.cursor callsign position' "sync")
        call := none
        responses := s.responses ++ [.page values (signer.cursor callsign position' "sync")] } := by
    rw [ApiChain.readPage, hafter, hlist, ← hposition']
    dsimp only
    rcases values.getLast? with _ | last <;> rfl
  have hpos' : 0 ≤ position' := hpos.trans (self_le_cursorAfter_page.trans hge)
  refine ⟨values, _, hrun, ?_, fun hlen => ?_⟩
  · rw [hrun]
    refine ⟨h.sound, ⟨position', hpos', hle', .inr rfl, ?_, rows ++ rows', hcomplete', ?_⟩, ?_⟩
    · intro _ h
      cases h
    · rw [received, List.flatMap_append, List.flatMap_singleton]
      exact List.rel_append hrows hvalues
    · intro response hresponse
      rcases List.mem_append.mp hresponse with hresponse | hresponse
      · exact h.pages response hresponse
      · exact ⟨values, position', List.mem_singleton.mp hresponse, hpos', hle'⟩
  · rw [← hvalues.length_eq] at hlen
    have hall : rows ++ rows' = s.tables.apiLog callsign :=
      hcomplete'.all (fun e he => (h.sound.messages.apiPosition_le he).1)
        fun e he => (le_cursorAfter_page hlog hlen he).trans hge
    rw [← hall]
    exact List.rel_append hrows hvalues

/-- What one event keeps. -/
theorem Invariant.step (hcallsign : (encodeUtf8 callsign).isSome) {s : ApiChain τ}
    (h : Invariant signer callsign s) (event : ApiEvent) :
    Invariant signer callsign (s.step signer callsign event) ∧
      s.tables.Grows (s.step signer callsign event).tables := by
  cases event with
  | store call => exact ⟨h.store call, (call.next_spec h.sound).2⟩
  | readHigh =>
    rw [ApiChain.step]
    cases s.call with
    | none =>
      obtain ⟨hinvariant, htables⟩ := h.readHigh
      exact ⟨hinvariant, htables ▸ Grows.refl _⟩
    | some call => exact ⟨h, Grows.refl _⟩
  | readPage =>
    rw [ApiChain.step]
    cases hcall : s.call with
    | none => exact ⟨h, Grows.refl _⟩
    | some call =>
      obtain ⟨values, cursor, hrun, hinvariant, -⟩ := h.readPage hcallsign hcall
      refine ⟨hinvariant, ?_⟩
      dsimp only
      rw [hrun]
      exact Grows.refl _

section Run

variable {t : Tables} {events : List ApiEvent}

theorem invariant_stateAt (hcallsign : (encodeUtf8 callsign).isSome) (h : t.Sound) :
    ∀ i ≤ events.length, Invariant signer callsign (stateAt signer callsign t events i) :=
  stateAt_invariant (Invariant.initial signer callsign h) fun _ _ hs => (hs.step hcallsign _).1

theorem grows_stateAt (signer : Signer τ) (hcallsign : (encodeUtf8 callsign).isSome) (h : t.Sound)
    {i j : ℕ} (hij : i ≤ j) (hj : j ≤ events.length) :
      (stateAt signer callsign t events i).tables.Grows
      (stateAt signer callsign t events j).tables :=
  stateAt_rel (R := fun s s' : ApiChain τ => s.tables.Grows s'.tables) (fun _ => Grows.refl _)
    (fun _ _ _ => Grows.trans)
    (fun k hk _ => ((invariant_stateAt hcallsign h k hk.le).step hcallsign _).2) hij hj

end Run

/-- What was returned is increasing. -/
theorem Invariant.ascending {s : ApiChain τ} (h : Invariant signer callsign s) :
    s.received.Pairwise fun message message' => message.apiSequence < message'.apiSequence := by
  obtain ⟨position, -, -, -, -, rows, hcomplete, hrows⟩ := h.progress
  have hascending : Ascending apiPosition rows := by
    have hitems : rows = segment apiPosition (s.tables.apiLog callsign) 0 position :=
      hcomplete.items_eq
    rw [hitems]
    exact (h.sound.messages.ascending_apiLog callsign).sublist List.filter_sublist
  have hpositions : rows.map apiPosition = s.received.map fun message =>
    (message.apiSequence : ℤ) :=
    List.forall₂_eq_eq_eq ▸ List.forall₂_map_left_iff.mpr (List.forall₂_map_right_iff.mpr
      (hrows.imp fun _ _ hmessage => (storedMessage_apiSequence hmessage).symm))
  have hpairwise : (rows.map apiPosition).Pairwise (· < ·) := List.pairwise_map.mpr hascending
  rw [hpositions, List.pairwise_map] at hpairwise
  exact hpairwise.imp fun hlt => Int.ofNat_lt.mp hlt

/-- A page that is not full leaves nothing out. -/
theorem Invariant.returned (hcallsign : (encodeUtf8 callsign).isSome) {s : ApiChain τ}
    (h : Invariant signer callsign s) {call : SyncCall} (hcall : s.call = some call)
    {values : List StoredMessage} {cursor : τ}
    (hpage : (s.readPage signer callsign call).responses = s.responses ++ [.page values cursor])
    (hlen : values.length < syncLimit) {e : (Str × ℕ) × MessageRow}
    (he : e ∈ s.tables.apiLog callsign) : ∃ message, storedMessage e = .ok message ∧
      (s.readPage signer callsign call).received.count message = 1 := by
  obtain ⟨values', cursor', hrun, hinvariant, hall⟩ := h.readPage hcallsign hcall
  have hresponses : (s.readPage signer callsign call).responses =
      s.responses ++ [.page values' cursor'] := by rw [hrun]
  rw [hresponses] at hpage
  obtain ⟨rfl, rfl⟩ := SyncResponse.page.inj (List.singleton_inj.mp (List.append_cancel_left hpage))
  have hreceived : (s.readPage signer callsign call).received = s.received ++ values' := by
    rw [received, hresponses, List.flatMap_append, List.flatMap_singleton]
    rfl
  have hflip : List.Forall₂ (fun message e => storedMessage e = .ok message) (s.received ++ values')
      (s.tables.apiLog callsign) := (hall hlen).flip
  obtain ⟨message, hmem, hmessage⟩ := Py.exists_of_mem_forall₂ hflip he
  refine ⟨message, hmessage, List.count_eq_one_of_mem ?_ (hreceived ▸ hmem)⟩
  exact hinvariant.ascending.imp fun hlt heq => absurd (heq ▸ hlt) (lt_irrefl _)

end ApiChain

/-- **No message is lost or repeated.** Whatever is stored before, between and after the two reads
of each call: no call of a chain is rejected, and every cursor stays valid; the messages come in
ascending API order; and once a call has returned fewer messages than it asked for, each message to
or from the account that was stored before has been returned exactly once. -/
theorem sync_lossless {τ : Type} (signer : Signer τ) (callsign : Str)
    (hcallsign : (encodeUtf8 callsign).isSome) (calls : List DatabaseCall) (events : List ApiEvent)
    (i : ℕ) (hi : i ≤ events.length) :
    let s := ApiChain.stateAt signer callsign (databaseState calls) events i
    (∀ response ∈ s.responses, ∃ messages cursor after, response = .page messages cursor ∧
      signer.cursorValue cursor callsign "sync" = .ok after ∧ after ≤ apiHighWater s.tables) ∧
    (s.received.Pairwise fun message message' => message.apiSequence < message'.apiSequence) ∧
    (∀ message ∈ s.received, ∃ e ∈ s.tables.apiLog callsign, storedMessage e = .ok message) ∧
    ∀ call messages cursor, s.call = some call →
      (s.step signer callsign .readPage).responses = s.responses ++ [.page messages cursor] →
      messages.length < syncLimit → ∀ j ≤ i,
        ∀ e ∈ (ApiChain.stateAt signer callsign (databaseState calls) events j).tables.apiLog
            callsign,
          ∃ message, storedMessage e = .ok message ∧
            (s.step signer callsign .readPage).received.count message = 1 := by
  intro s
  have hsound := sound_databaseState calls
  have h : ApiChain.Invariant signer callsign s := ApiChain.invariant_stateAt hcallsign hsound i hi
  refine ⟨fun response hresponse => ?_, h.ascending, fun message hmessage => ?_,
    fun call messages cursor hcall hpage hlen j hj e he => ?_⟩
  · obtain ⟨messages, position, hpage, hpos, hle⟩ := h.pages response hresponse
    exact ⟨messages, _, position, hpage, signer.cursorValue_cursor callsign hpos "sync", hle⟩
  · obtain ⟨position, -, -, -, -, rows, hcomplete, hrows⟩ := h.progress
    obtain ⟨e, he, hstored⟩ := Py.exists_of_mem_forall₂ hrows hmessage
    have hitems : rows = segment apiPosition (s.tables.apiLog callsign) 0 position :=
      hcomplete.items_eq
    rw [hitems] at he
    exact ⟨e, (mem_segment.mp he).1, hstored⟩
  · have hgrows := ApiChain.grows_stateAt signer hcallsign hsound hj hi
    obtain ⟨later, hlog, -⟩ := hgrows.apiLog (ApiChain.invariant_stateAt hcallsign hsound j
      (hj.trans hi)).sound.messages h.sound.messages callsign
    have hstep : s.step signer callsign .readPage = s.readPage signer callsign call := by
      rw [ApiChain.step, hcall]
    rw [hstep] at hpage ⊢
    refine h.returned hcallsign hcall hpage hlen ?_
    rw [hlog]
    exact List.mem_append_left _ he

/-- A message that is stored between the two reads of a call. -/
def storeInside : List ApiEvent :=
  [.readHigh, .store (.message (.storeMessage 1700000000 (str "K1XYZ") (str "EA1ABC")
    (str "73") 0 [])),
    .readPage, .readHigh]

theorem sync_lossless_storeInside :
    let signer : Signer CursorClaims := ⟨id, some, fun _ => rfl⟩
    let s := ApiChain.stateAt signer (str "EA1ABC") .fresh storeInside 4
    (encodeUtf8 (str "EA1ABC")).isSome ∧ s.received.map StoredMessage.body = [str "73"] ∧
      (s.received.Pairwise fun message message' => message.apiSequence < message'.apiSequence) ∧
      ∀ response ∈ s.responses, ∃ messages cursor after, response = .page messages cursor ∧
        signer.cursorValue cursor (str "EA1ABC") "sync" = .ok after ∧
          after ≤ apiHighWater s.tables := by
  intro signer s
  have hcallsign : (encodeUtf8 (str "EA1ABC")).isSome := by decide +kernel
  obtain ⟨hpages, hascending, -⟩ := sync_lossless signer (str "EA1ABC") hcallsign [] storeInside
    4 le_rfl
  exact ⟨hcallsign, by decide +kernel, hascending, hpages⟩

end OpenQSP
