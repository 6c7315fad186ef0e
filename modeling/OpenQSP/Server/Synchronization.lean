import OpenQSP.Server.Serving

/-!
# Synchronization page by page

A client keeps a cursor, asks for a page, and takes its next cursor from the `END`, while messages
and bulletins are stored at any time. A mailbox and the bulletins are read in the same way, each
with a handler of its own; `Feed` is what they have in common, and `Feed.Lawful` is what the handler
and the log owe each other. From that alone it follows that such a client misses nothing and
receives nothing twice.

## Main definitions

* `Feed`, `mailboxFeed`, `bulletinFeed`
* `SyncState`, `SyncEvent`, `Feed.step` — the client among the calls of the stores
* `Feed.Answers`, `Feed.Refuses`, `Feed.Synchronizes`
* `Feed.Lawful`
* `Feed.Dispatched`, `Feed.ServesPages` — the same pages as frames

## Main results

* `Feed.Lawful.Invariant.step` — what one event keeps
* **`synchronization_complete`** — both feeds synchronize
* `synchronization_served` — in every state of such a run `handle_frame` sends the pages whose
  items the encoder accepts
-/

namespace OpenQSP

open Tables

/-- A log that clients read page by page. -/
structure Feed (ρ ι : Type) where
  operation : Operation
  /-- The object that asks for a page. -/
  request : ℤ → ℤ → ProtocolObject
  /-- The handler, for a cursor and the number of items asked for. -/
  answer : ℤ → ℤ → Method PyError Tables (List ProtocolObject)
  /-- The rows, in their order. -/
  log : Tables → List ρ
  position : ρ → ℤ
  /-- The high-water value. -/
  highest : Tables → ℕ
  /-- The item that a row is sent as. -/
  shows : Tables → ρ → ι → Prop
  sequence : ι → ℤ
  item : ι → ProtocolObject

/-- The mailbox of a callsign. -/
def mailboxFeed (callsign : Str) : Feed ((Str × ℕ) × MessageRow) Message where
  operation := .getNewMessages
  request since max := .getNewMessages ⟨since, max⟩
  answer since max := handleGetNewMessages ⟨true, true⟩ callsign ⟨since, max⟩
  log t := t.mailbox callsign
  position := mailboxPosition
  highest t := t.highest callsign
  shows := Delivers
  sequence := Message.sequence
  item := .message

/-- The bulletins, as a callsign reads them. -/
def bulletinFeed (callsign : Str) : Feed (ℕ × BulletinRow) BulletinHeader where
  operation := .getNewBulletins
  request since max := .getNewBulletins ⟨since, max⟩
  answer since max := handleGetNewBulletins ⟨true, true⟩ callsign ⟨since, max⟩
  log t := t.bulletins.entries
  position := bulletinPosition
  highest t := t.bulletinSequence
  shows _ := Lists
  sequence := BulletinHeader.sequence
  item := .bulletinHeader

/-! ### The client -/

/-- The database, and what the client has. -/
structure SyncState where
  tables : Tables
  since : ℤ
  received : List ProtocolObject

/-- Somebody calls a store, or the client asks for a page. -/
inductive SyncEvent
  | call (call : DatabaseCall)
  | request (max : ℤ)

/-- The client takes the items in front of an `END`, and its cursor from the `END`. -/
def SyncState.receive (s : SyncState) (responses : List ProtocolObject) : SyncState :=
  match responses.getLast? with
  | some (.end last) =>
    { s with since := last.nextSince, received := s.received ++ responses.dropLast }
  | _ => s

namespace Feed

variable {ρ ι : Type} (feed : Feed ρ ι)

/-- One event. -/
def step (s : SyncState) : SyncEvent → SyncState
  | .call call => { s with tables := call.next s.tables }
  | .request max =>
    match (feed.answer s.since max).run s.tables with
    | (.ok responses, tables) => { s with tables }.receive responses
    | (.error _, tables) => { s with tables }

/-- A page: at most as many items as were asked for, the next ones, and an `END` that says how
many, where to go on, and whether there are more. -/
def Answers (t : Tables) (since max : ℤ) : Prop :=
  ∃ (items : List ι) (more : Bool),
    (feed.answer since max).run t = (.ok (items.map feed.item ++
      [.end ⟨feed.operation, items.length,
      cursorAfter feed.sequence since items, more⟩]), t) ∧
    items.length ≤ max ∧
    List.Forall₂ (feed.shows t)
      (segment feed.position (feed.log t) since (cursorAfter feed.sequence since items)) items ∧
    (more = true ↔ ∃ e ∈ feed.log t, cursorAfter feed.sequence since items < feed.position e)

/-- One `ERROR` that says that the cursor is invalid. -/
def Refuses (t : Tables) (since max : ℤ) : Prop :=
  ∃ detail, (feed.answer since max).run t =
    (.ok [.error ⟨some feed.operation, .invalidCursor, detail⟩], t)

/-- The state after the first `i` events of a client that starts at a cursor. -/
def stateAt (t : Tables) (start : ℤ) (events : List SyncEvent) (i : ℕ) : SyncState :=
  OpenQSP.stateAt feed.step ⟨t, start, []⟩ events i

/-- In every state of every run of a client with a valid first cursor: it has received the items
between its first cursor and its present one, each once and in order; its present and former cursors
are answered with pages; and a cursor ahead of the log is refused. -/
def Synchronizes : Prop :=
  ∀ (calls : List DatabaseCall) (start : ℤ), 0 ≤ start →
    start ≤ feed.highest (databaseState calls) →
    ∀ events : List SyncEvent,
      (∀ max : ℤ, .request max ∈ events → 1 ≤ max ∧ max ≤ maxRetrievalLimit) → ∀ i ≤ events.length,
        let s := feed.stateAt (databaseState calls) start events i
        Ascending feed.position (feed.log s.tables) ∧
        (∃ items, List.Forall₂ (feed.shows s.tables)
            (segment feed.position (feed.log s.tables) start s.since) items ∧
          s.received = items.map feed.item) ∧
        (∀ j ≤ i, ∀ max : ℤ, 1 ≤ max → max ≤ maxRetrievalLimit →
          feed.Answers s.tables (feed.stateAt (databaseState calls) start events j).since max) ∧
        ∀ cursor max : ℤ, (feed.highest s.tables : ℤ) < cursor → cursor ≤ maxU32 → 1 ≤ max →
          max ≤ maxRetrievalLimit → feed.Refuses s.tables cursor max

/-! ### What the handler and the log owe each other -/

/-- The handler serves the log, and the log grows at its end. -/
structure Lawful : Prop where
  ascending {t : Tables} : t.Sound → Ascending feed.position (feed.log t)
  /-- The handler sends the next page. -/
  answer_ok {t : Tables} {since max : ℤ} : t.Sound → 0 ≤ since → since ≤ feed.highest t →
    1 ≤ max ∧ max ≤ maxRetrievalLimit → ∃ items,
      List.Forall₂ (feed.shows t) (page feed.position (feed.log t) since max.toNat) items ∧
      (feed.answer since max).run t =
        (.ok (items.map feed.item ++ [.end ⟨feed.operation, items.length,
          cursorAfter feed.position since (page feed.position (feed.log t) since max.toNat),
          decide (∃ e ∈ feed.log t, cursorAfter feed.position since
            (page feed.position (feed.log t) since max.toNat) < feed.position e)⟩]), t)
  answer_ahead {t : Tables} {since max : ℤ} : t.Sound → (feed.highest t : ℤ) < since →
    since ≤ maxU32 → 1 ≤ max ∧ max ≤ maxRetrievalLimit → feed.Refuses t since max
  /-- No row is beyond the high-water value. -/
  position_le {t : Tables} {e : ρ} : t.Sound → e ∈ feed.log t → feed.position e ≤ feed.highest t
  /-- New rows are beyond the old high-water value. -/
  grows {t t' : Tables} : t.Sound → t'.Sound → t.Grows t' → ∃ later,
    feed.log t' = feed.log t ++ later ∧ ∀ e ∈ later, (feed.highest t : ℤ) < feed.position e
  highest_le {t t' : Tables} : t.Sound → t'.Sound → t.Grows t' → feed.highest t ≤ feed.highest t'
  /-- An item keeps the position and the content of its row. -/
  sequence_eq {t : Tables} {e : ρ} {i : ι} : feed.shows t e i → feed.sequence i = feed.position e
  shows_grows {t t' : Tables} {e : ρ} {i : ι} : t.Sound → t'.Sound → t.Grows t' →
    e ∈ feed.log t → feed.shows t e i → feed.shows t' e i

namespace Lawful

variable {feed} {t t' : Tables} {since max start : ℤ}

/-- A page of a lawful feed. -/
theorem answers (h : feed.Lawful) (hsound : t.Sound) (hpos : 0 ≤ since)
    (hsince : since ≤ feed.highest t) (hmax : 1 ≤ max ∧ max ≤ maxRetrievalLimit) :
    feed.Answers t since max := by
  obtain ⟨items, hitems, hrun⟩ := h.answer_ok hsound hpos hsince hmax
  have hcursor : cursorAfter feed.sequence since items =
      cursorAfter feed.position since (page feed.position (feed.log t) since max.toNat) :=
    (cursorAfter_congr (hitems.imp fun _ _ hshows => (h.sequence_eq hshows).symm)).symm
  refine ⟨items, _, by rw [hcursor]; exact hrun, ?_, ?_, ?_⟩
  · have hlen : items.length ≤ max.toNat := by
      rw [← hitems.length_eq]
      exact List.length_take_le _ _
    omega
  · rw [hcursor, ← page_eq_segment (h.ascending hsound)]
    exact hitems
  · rw [hcursor, decide_eq_true_eq]

/-- What holds of the client in every state. -/
structure Invariant (feed : Feed ρ ι) (start : ℤ) (s : SyncState) : Prop where
  sound : s.tables.Sound
  since_nonneg : 0 ≤ s.since
  since_le : s.since ≤ feed.highest s.tables
  /-- The rows that were sent, and the items they were sent as. -/
  received : ∃ rows items,
    (⟨s.since, rows⟩ : Reader ρ ℤ).Complete feed.position start (feed.log s.tables) ∧
    List.Forall₂ (feed.shows s.tables) rows items ∧ s.received = items.map feed.item

/-- The stores grow behind the client. -/
theorem Invariant.call (h : feed.Lawful) {s : SyncState} (hs : Invariant feed start s)
    (call : DatabaseCall) : Invariant feed start { s with tables := call.next s.tables } := by
  obtain ⟨hsound, hgrows⟩ := call.next_spec hs.sound
  obtain ⟨later, hlog, hlater⟩ := h.grows hs.sound hsound hgrows
  obtain ⟨rows, items, hcomplete, hitems, hreceived⟩ := hs.received
  have hbeyond : ∀ e ∈ later, s.since < feed.position e :=
    fun e he => lt_of_le_of_lt hs.since_le (hlater e he)
  have hrows : ∀ e ∈ rows, e ∈ feed.log s.tables := by
    intro e he
    have hrows : rows = segment feed.position (feed.log s.tables) start s.since :=
      hcomplete.items_eq
    rw [hrows] at he
    exact (mem_segment.mp he).1
  refine ⟨hsound, hs.since_nonneg, ?_, rows, items, ?_, ?_, hreceived⟩
  · have hle := h.highest_le hs.sound hsound hgrows
    exact hs.since_le.trans (by exact_mod_cast hle)
  · show Reader.Complete feed.position start (feed.log (call.next s.tables)) _
    rw [hlog]
    exact hcomplete.grow hbeyond
  · clear hcomplete hreceived
    induction hitems with
    | nil => exact .nil
    | cons hshows _ ih =>
      exact .cons (h.shows_grows hs.sound hsound hgrows (hrows _ List.mem_cons_self) hshows)
        (ih fun e he => hrows e (List.mem_cons_of_mem _ he))

/-- The client receives a page. -/
theorem Invariant.request (h : feed.Lawful) {s : SyncState} (hs : Invariant feed start s)
    (hmax : 1 ≤ max ∧ max ≤ maxRetrievalLimit) :
    Invariant feed start (feed.step s (.request max)) ∧
      (feed.step s (.request max)).tables = s.tables := by
  obtain ⟨sent, hsent, hrun⟩ := h.answer_ok hs.sound hs.since_nonneg hs.since_le hmax
  obtain ⟨rows, items, hcomplete, hitems, hreceived⟩ := hs.received
  rw [step, hrun]
  simp only [SyncState.receive, List.getLast?_concat, List.dropLast_concat]
  refine ⟨⟨hs.sound, ?_, ?_, rows ++ _, items ++ sent, hcomplete.advance (h.ascending hs.sound) _,
    List.rel_append hitems hsent, ?_⟩, trivial⟩
  · exact hs.since_nonneg.trans self_le_cursorAfter_page
  · rcases cursorAfter_eq_or feed.position s.since
        (page feed.position (feed.log s.tables) s.since max.toNat) with hcursor | ⟨e, he, hcursor⟩
    · rw [hcursor]
      exact hs.since_le
    · rw [hcursor]
      exact h.position_le hs.sound (page_subset_beyond he).1
  · rw [hreceived, List.map_append]

/-- What one event keeps. -/
theorem Invariant.step (h : feed.Lawful) {s : SyncState} (hs : Invariant feed start s)
    {event : SyncEvent} (hevent : ∀ max, event = .request max → 1 ≤ max ∧ max ≤ maxRetrievalLimit) :
    Invariant feed start (feed.step s event) ∧ s.tables.Grows (feed.step s event).tables := by
  cases event with
  | call call => exact ⟨hs.call h call, (call.next_spec hs.sound).2⟩
  | request max =>
    obtain ⟨hinvariant, htables⟩ := hs.request h (hevent max rfl)
    rw [htables]
    exact ⟨hinvariant, Grows.refl _⟩

/-- A lawful feed synchronizes. -/
theorem synchronizes (h : feed.Lawful) : feed.Synchronizes := by
  intro calls start hstart hhighest events hevents i hi
  have hinvariant : ∀ j ≤ events.length,
      Invariant feed start (feed.stateAt (databaseState calls) start events j) := by
    refine stateAt_invariant ⟨sound_databaseState calls, hstart, hhighest, [], [],
      Reader.Complete.initial _ _ _, .nil, rfl⟩ fun j hj hs => ?_
    exact (hs.step h fun max hmax => hevents max (hmax ▸ List.getElem_mem hj)).1
  have hgrows : ∀ j ≤ i, (feed.stateAt (databaseState calls) start events j).tables.Grows
      (feed.stateAt (databaseState calls) start events i).tables := fun j hj =>
    stateAt_rel (R := fun s s' : SyncState => s.tables.Grows s'.tables) (fun _ => Grows.refl _)
      (fun _ _ _ => Grows.trans) (fun k hk _ => ((hinvariant k hk.le).step h fun max hmax =>
        hevents max (hmax ▸ List.getElem_mem hk)).2) hj hi
  obtain ⟨hsound, -, -, rows, items, hcomplete, hitems, hreceived⟩ := hinvariant i hi
  refine ⟨h.ascending hsound, ⟨items, ?_, hreceived⟩, fun j hj max hmin hmax => ?_,
    fun cursor max hcursor hle hmin hmax => h.answer_ahead hsound hcursor hle ⟨hmin, hmax⟩⟩
  · have hrows : rows = _ := hcomplete.items_eq
    rw [← hrows]
    exact hitems
  · have hs := hinvariant j (hj.trans hi)
    have hle := h.highest_le hs.sound hsound (hgrows j hj)
    exact h.answers hsound hs.since_nonneg (hs.since_le.trans (by exact_mod_cast hle)) ⟨hmin, hmax⟩

end Lawful

/-! ### Pages as frames -/

section Frames

variable {ω : Type} (listeners : List (Listener ω)) (clock : ℤ) (callsign : Str)

/-- The requests of the feed reach its handler, and what the decoder and the encoder accept of it
has unsigned 32-bit cursors. -/
structure Dispatched : Prop where
  operation : feed.operation.isRetrieval
  dispatch_eq (since max : ℤ) : dispatch ⟨true, true⟩ clock callsign (feed.request since max) =
    feed.answer since max >>= fun responses => pure (responses, [])
  request_range {frame : Bytes} {since max : ℤ} :
    decodeFrame frame = .ok (feed.request since max) →
      (0 ≤ since ∧ since ≤ maxU32) ∧ 1 ≤ max ∧ max ≤ maxRetrievalLimit
  item_range {i : ι} : Encodable (feed.item i) → 1 ≤ feed.sequence i ∧ feed.sequence i ≤ maxU32

/-- The frame is answered with the frames of a page, as `Answers` has it, when the encoder accepts
the items of the page, and makes `handle_frame` raise when it does not. -/
def ServesPage (node : Node ω) (frame : Bytes) (since max : ℤ) : Prop :=
  ∃ (items : List ι) (more : Bool),
    (feed.answer since max).run node.tables = (.ok (items.map feed.item ++
      [.end ⟨feed.operation, items.length,
      cursorAfter feed.sequence since items, more⟩]), node.tables) ∧
    ((∀ i ∈ items, Encodable (feed.item i)) →
      Node.Serves listeners clock callsign node frame (items.map feed.item ++
        [.end ⟨feed.operation, items.length, cursorAfter feed.sequence since items, more⟩])) ∧
    ((∃ i ∈ items, ¬Encodable (feed.item i)) → Node.Fails listeners clock callsign node frame)

/-- In every state of every run, a frame that asks with a present or former cursor of the client is
answered with a page whose items the encoder accepts. -/
def ServesPages : Prop :=
  ∀ (calls : List DatabaseCall) (start : ℤ), 0 ≤ start →
    start ≤ feed.highest (databaseState calls) →
    ∀ events : List SyncEvent,
      (∀ max : ℤ, .request max ∈ events → 1 ≤ max ∧ max ≤ maxRetrievalLimit) →
      ∀ i ≤ events.length, ∀ j ≤ i, ∀ node : Node ω,
        node.tables = (feed.stateAt (databaseState calls) start events i).tables →
        let since := (feed.stateAt (databaseState calls) start events j).since
        ∀ frame max, decodeFrame frame = .ok (feed.request since max) →
          feed.ServesPage listeners clock callsign node frame since max

variable {feed listeners clock callsign}

/-- A page that the handler gives is sent by `handle_frame`. -/
theorem Dispatched.servesPage (h : feed.Dispatched clock callsign) {node : Node ω} {frame : Bytes}
    {since max : ℤ} (hanswers : feed.Answers node.tables since max)
    (hrequest : decodeFrame frame = .ok (feed.request since max)) :
    feed.ServesPage listeners clock callsign node frame since max := by
  obtain ⟨⟨hpos, hle⟩, -, hmax⟩ := h.request_range hrequest
  obtain ⟨items, more, hrun, hlen, -⟩ := hanswers
  have hdispatch := run_quiet hrun
  rw [← h.dispatch_eq] at hdispatch
  obtain ⟨hserves, hfails⟩ := Node.serves_iff listeners clock callsign hrequest hdispatch
  refine ⟨items, more, hrun, fun hitems => hserves fun response hresponse => ?_, ?_⟩
  · rcases List.mem_append.mp hresponse with hresponse | hresponse
    · obtain ⟨i, hi, rfl⟩ := List.mem_map.mp hresponse
      exact hitems i hi
    · rw [List.mem_singleton.mp hresponse]
      -- The new cursor is the old one or the sequence of an item.
      have hcursor : 0 ≤ cursorAfter feed.sequence since items ∧
          cursorAfter feed.sequence since items ≤ maxU32 := by
        rcases cursorAfter_eq_or feed.sequence since items with hcursor | ⟨i, hi, hcursor⟩
        · rw [hcursor]
          exact ⟨hpos, hle⟩
        · have hrange := h.item_range (hitems i hi)
          rw [hcursor]
          exact ⟨by omega, hrange.2⟩
      exact encodable_endOfPage h.operation hlen hmax hcursor.1 hcursor.2
  · rintro ⟨i, hi, hnot⟩
    exact hfails ⟨feed.item i, List.mem_append_left _ (List.mem_map_of_mem hi), hnot⟩

/-- The pages of a feed that synchronizes, as frames. -/
theorem Synchronizes.servesPages (h : feed.Synchronizes)
    (hdispatched : feed.Dispatched clock callsign) :
    feed.ServesPages listeners clock callsign := by
  intro calls start hstart hhighest events hevents i hi j hj node hnode since frame max hrequest
  obtain ⟨-, hmin, hmax⟩ := hdispatched.request_range hrequest
  refine hdispatched.servesPage ?_ hrequest
  rw [hnode]
  exact (h calls start hstart hhighest events hevents i hi).2.2.1 j hj max hmin hmax

end Frames

end Feed

/-! ### The two feeds -/

section Feeds

variable {callsign : Str}

theorem mailboxFeed_lawful
    (hcallsign : validateCallsign callsign "authenticated_callsign" = .ok callsign) :
    (mailboxFeed callsign).Lawful where
  ascending hsound := hsound.messages.ascending_mailbox callsign
  answer_ok hsound hpos hsince hmax :=
    handleGetNewMessages_ok true hsound.messages hcallsign hpos hsince hmax
  answer_ahead hsound hsince hle hmax :=
    ⟨_, handleGetNewMessages_ahead true hsound.messages hcallsign hsince hle hmax⟩
  position_le hsound he :=
    Int.ofNat_le.mpr ((hsound.messages.contiguous_mailbox callsign).le he).2
  grows hsound hsound' hgrows := hgrows.mailbox hsound.messages hsound'.messages callsign
  highest_le hsound hsound' hgrows := by
    obtain ⟨later, happend, -⟩ := hgrows.mailbox hsound.messages hsound'.messages callsign
    have hlen := (hsound'.messages.contiguous_mailbox callsign).length_eq
    rw [happend, List.length_append, (hsound.messages.contiguous_mailbox
      callsign).length_eq] at hlen
    show Tables.highest _ callsign ≤ Tables.highest _ callsign
    omega
  sequence_eq hshows := hshows.sequence
  shows_grows hsound hsound' hgrows he hshows :=
    hshows.grows (hsound.messages.mem_mailbox.mp he).1 hgrows hsound.messages hsound'.messages

theorem bulletinFeed_lawful
    (hcallsign : validateCallsign callsign "authenticated_callsign" = .ok callsign) :
    (bulletinFeed callsign).Lawful where
  ascending hsound := hsound.bulletins.ascending
  answer_ok hsound hpos hsince hmax :=
    handleGetNewBulletins_ok true hsound.bulletins hcallsign hpos hsince hmax
  answer_ahead hsound hsince hle hmax :=
    ⟨_, handleGetNewBulletins_ahead true hsound.bulletins hcallsign hsince hle hmax⟩
  position_le hsound he := Int.ofNat_le.mpr (hsound.bulletins.contiguous.le he).2
  grows hsound hsound' hgrows := hgrows.bulletinRows hsound.bulletins hsound'.bulletins
  highest_le hsound hsound' hgrows := by
    obtain ⟨later, happend, -⟩ := hgrows.bulletinRows hsound.bulletins hsound'.bulletins
    have hlen := hsound'.bulletins.contiguous.length_eq
    rw [happend, List.length_append, hsound.bulletins.contiguous.length_eq] at hlen
    show Tables.bulletinSequence _ ≤ Tables.bulletinSequence _
    omega
  sequence_eq hshows := by
    obtain ⟨stored, hstored, rfl⟩ := hshows
    exact congrArg Nat.cast (storedHeader_sequence hstored)
  shows_grows _ _ _ _ hshows := hshows

theorem mailboxFeed_dispatched (clock : ℤ) :
    (mailboxFeed callsign).Dispatched clock callsign where
  operation := rfl
  dispatch_eq _ _ := rfl
  request_range hrequest := by
    obtain ⟨hpos, hle, hmax⟩ := getNewMessages_of_decodeFrame hrequest
    exact ⟨⟨hpos, hle⟩, hmax⟩
  item_range hitem := (encodable_message.mp hitem).sequence

theorem bulletinFeed_dispatched (clock : ℤ) :
    (bulletinFeed callsign).Dispatched clock callsign where
  operation := rfl
  dispatch_eq _ _ := rfl
  request_range hrequest := by
    obtain ⟨hpos, hle, hmax⟩ := getNewBulletins_of_decodeFrame hrequest
    exact ⟨⟨hpos, hle⟩, hmax⟩
  item_range hitem := (encodable_bulletinHeader.mp hitem).sequence

/-- **Synchronization.** A client with a valid cursor that asks for pages of any size, while any
calls of the stores come in between, receives exactly the messages of its mailbox beyond its first
cursor, each once and in order; all its cursors stay valid; and a cursor ahead of the mailbox is
refused. The same holds of the bulletins. -/
theorem synchronization_complete (callsign : Str)
    (hcallsign : validateCallsign callsign "authenticated_callsign" = .ok callsign) :
    (mailboxFeed callsign).Synchronizes ∧ (bulletinFeed callsign).Synchronizes :=
  ⟨(mailboxFeed_lawful hcallsign).synchronizes, (bulletinFeed_lawful hcallsign).synchronizes⟩

/-- A message and a bulletin, stored between two pages. -/
def storesBetween : List SyncEvent :=
  [.request 1, .call (.message (.storeMessage 1700000000 (str "K1XYZ") (str "EA1ABC")
    (str "73") 0 [])),
    .call (.bulletin 1700000000 (str "K1XYZ") (str "Net") (str "Sunday") 0 []), .request 20]

theorem synchronization_complete_storesBetween :
    validateCallsign (str "EA1ABC") "authenticated_callsign" = .ok (str "EA1ABC") ∧
    (mailboxFeed (str "EA1ABC")).Answers
      ((mailboxFeed (str "EA1ABC")).stateAt .fresh 0 storesBetween 4).tables 0 20 ∧
    (bulletinFeed (str "EA1ABC")).Answers
      ((bulletinFeed (str "EA1ABC")).stateAt .fresh 0 storesBetween 4).tables 0 20 := by
  have hcallsign : validateCallsign (str "EA1ABC") "authenticated_callsign" =
    .ok (str "EA1ABC") := by
    decide +kernel
  have hevents : ∀ max, SyncEvent.request max ∈ storesBetween → 1 ≤ max ∧
    max ≤ maxRetrievalLimit := by
    intro max hmax
    simp only [storesBetween, List.mem_cons, SyncEvent.request.injEq, reduceCtorEq,
      List.not_mem_nil,
      or_false, false_or] at hmax
    rcases hmax with rfl | rfl
    · decide
    · decide
  obtain ⟨hmailbox, hbulletins⟩ := synchronization_complete (str "EA1ABC") hcallsign
  exact ⟨hcallsign,
    (hmailbox [] 0 le_rfl (by decide) storesBetween hevents 4 le_rfl).2.2.1 0 (Nat.zero_le 4) 20
      (by decide) (by decide),
    (hbulletins [] 0 le_rfl (by decide) storesBetween hevents 4 le_rfl).2.2.1 0 (Nat.zero_le 4) 20
      (by decide) (by decide)⟩

/-- **Synchronization by frames.** Whatever the listeners are, `handle_frame` sends the pages of
such a client when the encoder accepts what is in them. -/
theorem synchronization_served {ω : Type} (listeners : List (Listener ω)) (clock : ℤ)
    (hcallsign : validateCallsign callsign "authenticated_callsign" = .ok callsign) :
    (mailboxFeed callsign).ServesPages listeners clock callsign ∧
      (bulletinFeed callsign).ServesPages listeners clock callsign :=
  ⟨(mailboxFeed_lawful hcallsign).synchronizes.servesPages (mailboxFeed_dispatched clock),
    (bulletinFeed_lawful hcallsign).synchronizes.servesPages (bulletinFeed_dispatched clock)⟩

end Feeds

end OpenQSP
