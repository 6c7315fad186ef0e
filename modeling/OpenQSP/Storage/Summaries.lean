import OpenQSP.Storage.ReadCursors

/-!
# Conversation summaries

There is one notion of having read a message: the cursor of its recipient for its author is not
behind it. The state of a message, the unread count of a summary and the effect of moving the cursor
all agree on it, in every database that the stores can reach.

## Main definitions

* `Between` — the messages of a conversation
* `Database.unread` — the messages of a peer whose state is not `read`
* `Summaries`, `Advanced` — what the summaries say, and what moving a cursor does

## Main results

* `conversations_spec` — the query of the summaries
* `Sound.advanced_spec` — moving a cursor
* `Sound.unread_storeMessage`, `Sound.unread_storeMessageIdempotent` — a new message
* **`conversations_agree`**
-/

namespace OpenQSP

open Session Tables

/-- The message is from one of the two to the other. -/
def Between (callsign peer : Str) (e : (Str × ℕ) × MessageRow) : Prop :=
  (e.2.author = callsign ∧ e.1.1 = peer) ∨ (e.2.author = peer ∧ e.1.1 = callsign)

namespace Database

variable {d : Database} {callsign peer : Str}

/-! ### The state of a message -/

/-- The state of a message is `read`. -/
def isRead (d : Database) (e : (Str × ℕ) × MessageRow) : Bool :=
  match (do d.messageState (← storedMessage e) : Py (MessageState × Option ℕ)) with
  | .ok (.read, _) => true
  | _ => false

/-- The number of messages of a peer whose state is not `read`. -/
def unread (d : Database) (callsign peer : Str) : ℕ :=
  d.messages.entries.countP fun e => e.1.1 = callsign && e.2.author = peer && !d.isRead e

theorem messageState_eq {value : StoredMessage} (hrecipient : (encodeUtf8 value.recipient).isSome)
    (hauthor : (encodeUtf8 value.author).isSome) (hmax : value.sequence ≤ maxU32) :
    ∃ deliveredAt : Option ℕ, d.lastDelivered value.recipient value.sequence = .ok deliveredAt ∧
      d.messageState value = .ok (if ∃ last ∈ d.conversationReads.get? (value.recipient,
        value.author),
        value.sequence ≤ last then (.read, deliveredAt)
      else (match deliveredAt with | some _ => .delivered | none => .stored, deliveredAt)) := by
  obtain ⟨deliveredAt, hdelivered⟩ : ∃ deliveredAt,
      d.lastDelivered value.recipient value.sequence = .ok deliveredAt := by
    rw [lastDelivered, bindText_of_isSome hrecipient, Py.ok_bind, bindInteger_of_le hmax]
    exact ⟨_, rfl⟩
  refine ⟨deliveredAt, hdelivered, ?_⟩
  simp only [messageState, lastRead_eq hrecipient hauthor, hdelivered, Py.ok_bind]
  split
  · rfl
  · cases deliveredAt <;> rfl

/-- A message has been read when the cursor is not behind it. -/
theorem Sound.isRead_iff (h : d.Sound) {e : (Str × ℕ) × MessageRow} (he : e ∈ d.messages.entries) :
    d.isRead e = true ↔ ∃ last ∈ d.conversationReads.get? (e.1.1, e.2.author), e.1.2 ≤ last := by
  obtain ⟨message, hmessage⟩ := h.counted.readable e he
  obtain ⟨htext, htext'⟩ := h.counted.texts e he
  obtain ⟨-, hmax, hsequence, hrecipient, hauthor, -⟩ := storedMessage_eq_ok hmessage
  rw [← hrecipient] at htext
  rw [← hauthor] at htext'
  obtain ⟨deliveredAt, -, hstate⟩ := messageState_eq (d := d) htext htext' (hsequence ▸ hmax)
  rw [hrecipient, hauthor, hsequence] at hstate
  rw [isRead, hmessage, Py.ok_bind, hstate]
  split
  · next hread =>
    split at hread
    · next hlast => exact iff_of_true rfl hlast
    · cases deliveredAt <;> cases hread
  · next hread =>
    refine iff_of_false Bool.false_ne_true fun hlast => ?_
    rw [if_pos hlast] at hread
    exact hread _ rfl

/-- A message has been read when it is not ahead of the cursor. -/
theorem Sound.isRead_iff_le (h : d.Sound) {e : (Str × ℕ) × MessageRow}
    (he : e ∈ d.messages.entries) : d.isRead e = true ↔ e.1.2 ≤ d.cursor e.1.1 e.2.author := by
  obtain ⟨message, hmessage⟩ := h.counted.readable e he
  have hpos := (storedMessage_eq_ok hmessage).1
  rw [h.isRead_iff he, cursor]
  rcases d.conversationReads.get? (e.1.1, e.2.author) with _ | last
  · refine iff_of_false ?_ (not_le.mpr hpos)
    rintro ⟨_, ⟨⟩, -⟩
  · simp

/-- The count of a summary is the number of messages that have not been read. -/
theorem Sound.countUnread_eq (h : d.Sound) :
    countUnread d.toTables callsign peer (d.cursor callsign peer) = d.unread callsign peer := by
  refine List.countP_congr fun e he => ?_
  have hread := h.isRead_iff_le he
  simp only [Bool.and_eq_true, decide_eq_true_eq, Bool.not_eq_true']
  refine and_congr_right fun hnames => ?_
  obtain ⟨rfl, rfl⟩ := hnames
  rw [← Bool.not_eq_true, hread, not_le]

/-! ### The query -/

/-- The peer of a message is the other one of the two. -/
theorem peerOf_eq_iff {e : (Str × ℕ) × MessageRow} (h : e ∈ d.apiLog callsign) :
    peerOf callsign e = peer ↔ Between callsign peer e := by
  simp only [Tables.apiLog, List.mem_filter, Bool.or_eq_true, decide_eq_true_eq] at h
  rw [peerOf, Between]
  split
  · next hauthor =>
    constructor
    · exact fun hpeer => .inl ⟨hauthor, hpeer⟩
    · rintro (⟨-, hpeer⟩ | ⟨hpeer, hcallsign⟩)
      · exact hpeer
      · rw [hcallsign, ← hpeer, hauthor]
  · next hauthor =>
    constructor
    · exact fun hpeer => .inr ⟨hpeer, h.2.resolve_left hauthor⟩
    · rintro (⟨hcallsign, -⟩ | ⟨hpeer, -⟩)
      · exact absurd hcallsign hauthor
      · exact hpeer

theorem mem_apiLog_of_between {e : (Str × ℕ) × MessageRow} (he : e ∈ d.messages.entries)
    (h : Between callsign peer e) : e ∈ d.apiLog callsign := by
  simp only [Tables.apiLog, List.mem_filter, Bool.or_eq_true, decide_eq_true_eq]
  exact ⟨he, h.imp And.left And.right⟩

end Database

/-- What the summaries of a user say. -/
structure Summaries (d : Database) (callsign : Str) (list : List Conversation) : Prop where
  /-- No peer has two summaries. -/
  distinct : (list.map (·.peer)).Nodup
  /-- The peers are those with whom there is a message. -/
  peers : ∀ peer, peer ∈ list.map (·.peer) ↔ ∃ e ∈ d.messages.entries, Between callsign peer e
  /-- The latest conversation comes first. -/
  descending : list.Pairwise fun s s' => s'.lastMessage.apiSequence < s.lastMessage.apiSequence
  /-- The last message of a conversation has its greatest API sequence. -/
  last : ∀ s ∈ list, ∃ e ∈ d.messages.entries, Between callsign s.peer e ∧
    storedMessage e = .ok s.lastMessage ∧
    ∀ e' ∈ d.messages.entries, Between callsign s.peer e' → e'.2.apiSequence ≤ e.2.apiSequence
  /-- The count of a conversation is that of its messages that have not been read. -/
  unread : ∀ s ∈ list, s.unreadCount = d.unread callsign s.peer
  cursor : ∀ s ∈ list, s.lastReadSequence = d.cursor callsign s.peer

/-- What moving the cursor of a user for a peer does. -/
structure Advanced (d : Database) (callsign peer : Str) (sequence : ℕ) (advanced : Bool)
    (d' : Database) : Prop where
  /-- Every message of the peer has been read. -/
  unread : d'.unread callsign peer = 0
  /-- The reported cursor is the stored one. -/
  cursor : d'.cursor callsign peer = sequence
  /-- The cursor is never lowered. -/
  cursor_le : d.cursor callsign peer ≤ d'.cursor callsign peer
  /-- The flag says whether the cursor grew. -/
  advanced_iff : advanced = true ↔ d.cursor callsign peer < d'.cursor callsign peer
  /-- No other cursor is touched, and no other table. -/
  cursors : ∀ q, q ≠ (callsign, peer) → d'.conversationReads.get? q = d.conversationReads.get? q
  tables : d'.toTables = d.toTables
  /-- No message of another pair changes its state. -/
  states : ∀ message : StoredMessage, (message.recipient, message.author) ≠ (callsign, peer) →
    d'.messageState message = d.messageState message
  /-- No summary of another pair changes. -/
  summaries : ∀ user list list', d.conversations user = .ok list →
    d'.conversations user = .ok list' →
    list'.filter (fun s => (user, s.peer) ≠ (callsign, peer)) =
      list.filter fun s => (user, s.peer) ≠ (callsign, peer)

namespace Database

variable {d d' : Database} {callsign peer : Str}

/-! ### What the query returns -/

theorem summary_eq_ok {row : (Str × ℕ) × MessageRow} {s : Conversation}
    (h : summary callsign d row = .ok s) : s.peer = peerOf callsign row ∧
      storedMessage row = .ok s.lastMessage ∧ s.lastReadSequence = d.cursor callsign s.peer ∧
      s.unreadCount = countUnread d.toTables callsign s.peer (d.cursor callsign s.peer) := by
  obtain ⟨message, hmessage, h⟩ := Py.bind_eq_ok.mp h
  obtain rfl := Except.ok.inj h
  exact ⟨rfl, hmessage, rfl, rfl⟩

/-- The rows of the last messages, the latest first. -/
def latest (d : Database) (callsign : Str) : List ((Str × ℕ) × MessageRow) :=
  orderBy (fun e => OrderDual.toDual e.2.apiSequence)
    (joinMax (peerOf callsign) (fun e => e.2.apiSequence) (d.apiLog callsign))

theorem conversations_eq (hcallsign : (encodeUtf8 callsign).isSome) :
    d.conversations callsign = (d.latest callsign).mapM (summary callsign d) := by
  rw [conversations, bindText_of_isSome hcallsign]
  rfl

theorem mem_latest {row : (Str × ℕ) × MessageRow} : row ∈ d.latest callsign ↔
    row ∈ d.apiLog callsign ∧ ∀ e ∈ d.apiLog callsign,
      peerOf callsign e = peerOf callsign row → e.2.apiSequence ≤ row.2.apiSequence := by
  rw [latest, mem_orderBy, mem_joinMax]

theorem Sound.nodup_apiLog (h : d.Sound) (callsign : Str) :
    ((d.apiLog callsign).map fun e => e.2.apiSequence).Nodup :=
  h.counted.apis_nodup.sublist (List.filter_sublist.map _)

/-- The peers of the rows, each of them once. -/
theorem Sound.perm_peers (h : d.Sound) (callsign : Str) :
    ((d.latest callsign).map (peerOf callsign)).Perm
      ((d.apiLog callsign).map (peerOf callsign)).dedup := by
  rw [← map_group_joinMax (h.nodup_apiLog callsign)]
  exact (orderBy_perm _ _).map _

/-- A user has one summary for each peer, and the query returns them. -/
theorem conversations_spec (h : d.Sound) (hcallsign : (encodeUtf8 callsign).isSome) :
    ∃ list, d.conversations callsign = .ok list ∧ Summaries d callsign list := by
  have hrows : ∀ row ∈ d.latest callsign, row ∈ d.messages.entries := fun row hrow =>
    (List.mem_filter.mp (mem_latest.mp hrow).1).1
  obtain ⟨list, hlist, hmapM⟩ := Py.exists_mapM (f := summary callsign d) (l := d.latest callsign)
    fun row hrow => by
      obtain ⟨message, hmessage⟩ := h.counted.readable row (hrows row hrow)
      simp only [summary, hmessage, Py.ok_bind]
      exact ⟨_, rfl⟩
  have hpeers : list.map (·.peer) = (d.latest callsign).map (peerOf callsign) := by
    refine List.forall₂_eq_eq_eq ▸ ?_
    rw [List.forall₂_map_left_iff, List.forall₂_map_right_iff]
    exact hlist.flip.imp fun s row hs => (summary_eq_ok hs).1
  have hperm := h.perm_peers callsign
  refine ⟨list, (conversations_eq hcallsign).trans hmapM, ?_, fun peer => ?_, ?_, fun s hs => ?_,
    fun s hs => ?_, fun s hs => ?_⟩
  · rw [hpeers, hperm.nodup_iff]
    exact List.nodup_dedup _
  · rw [hpeers, hperm.mem_iff, List.mem_dedup, List.mem_map]
    constructor
    · rintro ⟨e, he, hpeer⟩
      exact ⟨e, (List.mem_filter.mp he).1, (peerOf_eq_iff he).mp hpeer⟩
    · rintro ⟨e, he, hbetween⟩
      have hlog := mem_apiLog_of_between he hbetween
      exact ⟨e, hlog, (peerOf_eq_iff hlog).mpr hbetween⟩
  · have hsequences : list.map (·.lastMessage.apiSequence) =
        (d.latest callsign).map fun e => e.2.apiSequence := by
      refine List.forall₂_eq_eq_eq ▸ ?_
      rw [List.forall₂_map_left_iff, List.forall₂_map_right_iff]
      refine hlist.flip.imp fun s row hs => ?_
      obtain ⟨-, -, -, -, -, hapi⟩ := storedMessage_eq_ok (summary_eq_ok hs).2.1
      exact hapi
    have hkeys : ((joinMax (peerOf callsign) (fun e => e.2.apiSequence) (d.apiLog callsign)).map
        fun e => OrderDual.toDual e.2.apiSequence).Nodup :=
      nodup_position_joinMax (h.nodup_apiLog callsign)
    have hdescending := pairwise_lt_orderBy hkeys
    rw [← List.pairwise_map (f := fun s : Conversation => s.lastMessage.apiSequence)
      (R := fun a b => b < a),
      hsequences, List.pairwise_map]
    exact hdescending.imp fun hlt => OrderDual.toDual_lt_toDual.mp hlt
  · obtain ⟨row, hrow, hsummary⟩ := Py.exists_of_mem_forall₂ hlist hs
    obtain ⟨hpeer, hmessage, -, -⟩ := summary_eq_ok hsummary
    obtain ⟨hlog, hmax⟩ := mem_latest.mp hrow
    refine ⟨row, hrows row hrow, (peerOf_eq_iff hlog).mp hpeer.symm, hmessage,
      fun e he hbetween => ?_⟩
    have helog := mem_apiLog_of_between he hbetween
    exact hmax e helog (((peerOf_eq_iff helog).mpr hbetween).trans hpeer)
  · obtain ⟨row, -, hsummary⟩ := Py.exists_of_mem_forall₂ hlist hs
    exact (summary_eq_ok hsummary).2.2.2.trans h.countUnread_eq
  · obtain ⟨row, -, hsummary⟩ := Py.exists_of_mem_forall₂ hlist hs
    exact (summary_eq_ok hsummary).2.2.1

/-! ### Moving a cursor -/

theorem countP_isRead_eq_zero (h : d.Sound) (hle : ∀ e ∈ d.messages.entries, e.1.1 = callsign →
    e.2.author = peer → ∃ last ∈ d.conversationReads.get? (callsign, peer), e.1.2 ≤ last) :
    d.unread callsign peer = 0 := by
  refine List.countP_eq_zero.mpr fun e he => ?_
  simp only [Bool.and_eq_true, decide_eq_true_eq, Bool.not_eq_true']
  rintro ⟨⟨rfl, rfl⟩, hunread⟩
  rw [(h.isRead_iff he).mpr (hle e he rfl rfl)] at hunread
  cases hunread

/-- The rows of two lists of results, of which some must agree. -/
theorem filter_eq_of_forall₂ {α β : Type} {R R' : α → β → Prop} {p : β → Bool} {rows : List α}
    {l l' : List β} (h : List.Forall₂ R rows l) (h' : List.Forall₂ R' rows l')
    (hR : ∀ a b b', R a b → R' a b' → p b = p b' ∧ (p b = true → b = b')) :
    l.filter p = l'.filter p := by
  induction h generalizing l' with
  | nil =>
    cases h'
    rfl
  | cons hab _ ih =>
    cases h' with
    | cons hab' h' =>
      obtain ⟨hp, heq⟩ := hR _ _ _ hab hab'
      rw [List.filter_cons, List.filter_cons, ← hp, ih h']
      split
      · next hpb => rw [heq hpb]
      · rfl

/-- What moving a cursor does. -/
theorem Sound.advanced_spec (h : d.Sound) (callsign peer : Str) :
    Advanced d callsign peer ((d.advanced callsign peer).cursor callsign peer)
      (decide (d.cursor callsign peer < (d.advanced callsign peer).cursor callsign peer))
      (d.advanced callsign peer) := by
  have hother : ∀ q, q ≠ (callsign, peer) →
      (d.advanced callsign peer).conversationReads.get? q = d.conversationReads.get? q := by
    intro q hq
    rw [get?_advanced, if_neg hq]
  refine ⟨?_, rfl, ?_, decide_eq_true_iff, hother, rfl, fun message hmessage => ?_,
    fun user list list' hlist hlist' => ?_⟩
  · refine countP_isRead_eq_zero (h.next_advanced callsign peer) fun e he hrecipient hauthor => ?_
    rw [get?_advanced, if_pos rfl]
    exact ⟨_, rfl, (le_lastSequence he hrecipient hauthor).trans (le_max_right _ _)⟩
  · rw [cursor_advanced]
    exact le_max_left _ _
  · rw [messageState, messageState, lastRead_congr (hother _ hmessage)]
    rfl
  · have htext : (encodeUtf8 user).isSome := by
      obtain ⟨_, htext, -⟩ := Py.bind_eq_ok.mp hlist
      exact (bindText_eq_ok.mp htext).2
    rw [conversations_eq htext] at hlist hlist'
    refine filter_eq_of_forall₂ (Py.mapM_eq_ok.mp hlist') (Py.mapM_eq_ok.mp hlist)
      fun row s s' hs hs' => ?_
    have hpeer := (summary_eq_ok hs).1
    have hpeer' := (summary_eq_ok hs').1
    rw [hpeer, hpeer', decide_eq_true_eq]
    refine ⟨rfl, fun hne => ?_⟩
    have hsame : summary user (d.advanced callsign peer) row = summary user d row := by
      rw [summary, summary, hother _ hne]
      rfl
    exact Except.ok.inj (hs.symm.trans (hsame.trans hs'))

/-! ### A new message -/

/-- A message that is not behind the last value of its mailbox has not been read. -/
theorem unread_append (h : d.Sound) (h' : d'.Sound)
    (hreads : d'.conversationReads = d.conversationReads) {e : (Str × ℕ) × MessageRow}
    (hentries : d'.messages.entries = d.messages.entries ++ [e]) (hbeyond : d.Beyond e) :
    d'.unread callsign peer = d.unread callsign peer +
      if e.1.1 = callsign ∧ e.2.author = peer then 1 else 0 := by
  have hold : ∀ e' ∈ d.messages.entries, d'.isRead e' = d.isRead e' := by
    intro e' he'
    have hmem : e' ∈ d'.messages.entries := by
      rw [hentries]
      exact List.mem_append_left _ he'
    rw [Bool.eq_iff_iff, h'.isRead_iff hmem, h.isRead_iff he', hreads]
  have hnew : d'.isRead e = false := by
    have hmem : e ∈ d'.messages.entries := by
      rw [hentries]
      exact List.mem_append_right _ List.mem_cons_self
    rw [← Bool.not_eq_true, h'.isRead_iff hmem, hreads]
    rintro ⟨last, hlast, hle⟩
    have hlt := hbeyond.sequence
    have hcursor := h.reads_le _ _ _ hlast
    omega
  rw [unread, hentries, List.countP_append, List.countP_singleton, hnew]
  refine congrArg₂ _ (List.countP_congr fun e' he' => by rw [hold e' he']) ?_
  simp

/-- Storing a message raises the count of its author by one. -/
theorem Sound.unread_accepts (h : d.Sound) {createdAt : ℤ} {body : Str} {t : Tables}
    {message : StoredMessage} {apiIdempotency : OrderedDict (Str × Str × Str) IdempotencyRow}
    (haccepts : Accepts d.toTables createdAt peer callsign body t message)
    (hkeys : ∀ e ∈ apiIdempotency.entries, e ∈ d.apiIdempotency.entries ∨
      (e.2.recipient, e.2.mailboxSequence) ∈ t.messages.keys) :
    unread { d with toTables := { t with apiIdempotency } } callsign peer =
      d.unread callsign peer + 1 := by
  obtain ⟨data, -, hentries, -⟩ := haccepts.messages_eq
  have hsound : Sound { d with toTables := { t with apiIdempotency } } := by
    refine ⟨h.counted.accept haccepts hkeys, fun owner peer' last hlast => ?_⟩
    show last ≤ t.highest owner
    have hle := h.reads_le owner peer' last hlast
    rw [haccepts.highest_eq]
    split
    · next howner => exact (howner ▸ hle).trans (Nat.le_succ _)
    · exact hle
  rw [unread_append h hsound rfl hentries ⟨Nat.lt_succ_self _, Nat.lt_succ_self _⟩]
  exact congrArg _ (if_pos ⟨rfl, rfl⟩)

theorem Sound.unread_storeMessage (h : d.Sound) {createdAt clock : ℤ} {body : Str} {faults : Faults}
    {sequence : ℕ}
    (hstored : ((storeMessage createdAt peer callsign body clock faults).run d.toTables).1 =
      .ok sequence) :
    unread { d with
      toTables := ((storeMessage createdAt peer callsign body clock faults).run d.toTables).2 }
        callsign peer = d.unread callsign peer + 1 := by
  obtain ⟨message, haccepts, -⟩ := (storeMessage_spec _ _ _ _ _ _ _).2 sequence hstored
  refine h.unread_accepts haccepts fun e he => .inl ?_
  rwa [haccepts.apiIdempotency_eq] at he

theorem Sound.unread_storeMessageIdempotent (h : d.Sound) {createdAt clock : ℤ} {body : Str}
    {idempotencyKey : Option Str} {requestHash : Str} {faults : Faults} {message : StoredMessage}
    (hstored : ((storeMessageIdempotent createdAt peer callsign body idempotencyKey
      requestHash clock
      faults).run d.toTables).1 = .ok (message, true)) :
    unread { d with
      toTables := ((storeMessageIdempotent createdAt peer callsign body idempotencyKey
        requestHash clock
        faults).run d.toTables).2 } callsign peer = d.unread callsign peer + 1 := by
  have houtcome := (storeMessageIdempotent_spec h.counted.toReplayable createdAt peer callsign body
    idempotencyKey requestHash clock faults).2 _ hstored
  rcases houtcome.accepted with ⟨hfalse, -⟩ | ⟨-, t₁, apiIdempotency, haccepts, hnext, hkeys⟩
  · cases hfalse
  · rw [hnext]
    exact h.unread_accepts haccepts hkeys

end Database

/-- **Conversation summaries agree with the states of messages.** In every reachable database the
summaries of a user are right. Moving the cursor for a peer reads all its messages, and changes
nothing else; it fails only when the engine does. A message of the peer that is stored raises its
count by one. -/
theorem conversations_agree {d : Database} (h : d.Reachable) {callsign : Str}
    (hcallsign : (encodeUtf8 callsign).isSome) :
    (∃ list, d.conversations callsign = .ok list ∧ Summaries d callsign list) ∧
    ∀ peer,
      (∀ faults,
        (∀ e, ((Database.advanceConversationRead callsign peer faults).run d).1 = .error e →
          ((Database.advanceConversationRead callsign peer faults).run d).2 = d) ∧
        ∀ sequence advanced,
          ((Database.advanceConversationRead callsign peer faults).run d).1 =
            .ok (sequence, advanced) →
          Advanced d callsign peer sequence advanced
            ((Database.advanceConversationRead callsign peer faults).run d).2) ∧
      ((encodeUtf8 peer).isSome → ∃ result,
        ((Database.advanceConversationRead callsign peer []).run d).1 = .ok result) ∧
      (∀ createdAt body clock faults sequence,
        ((storeMessage createdAt peer callsign body clock faults).run d.toTables).1 = .ok sequence →
        Database.unread { d with
          toTables := ((storeMessage createdAt peer callsign body clock faults).run d.toTables).2 }
            callsign peer = d.unread callsign peer + 1) ∧
      ∀ createdAt body idempotencyKey requestHash clock faults message,
        ((storeMessageIdempotent createdAt peer callsign body idempotencyKey requestHash clock
          faults).run d.toTables).1 = .ok (message, true) →
        Database.unread { d with
          toTables := ((storeMessageIdempotent createdAt peer callsign body idempotencyKey
            requestHash
            clock faults).run d.toTables).2 } callsign peer = d.unread callsign peer + 1 := by
  have hsound := h.sound
  refine ⟨Database.conversations_spec hsound hcallsign, fun peer =>
    ⟨fun faults => ?_, fun hpeer => ?_,
    fun _ _ _ _ _ hstored => hsound.unread_storeMessage hstored,
    fun _ _ _ _ _ _ _ hstored => hsound.unread_storeMessageIdempotent hstored⟩⟩
  · obtain ⟨herr, hok⟩ := Database.advanceConversationRead_spec _ _ hsound faults
    refine ⟨herr, fun sequence advanced hrun => ?_⟩
    obtain ⟨hresult, hnext⟩ := hok _ hrun
    obtain ⟨rfl, rfl⟩ := Prod.mk.inj hresult
    rw [hnext]
    exact hsound.advanced_spec callsign peer
  · exact Database.advanceConversationRead_ok hsound hcallsign hpeer

/-- A database with one message from `EA1ABC` to `K1XYZ`. -/
def oneMessageDatabase : Database := MailCall.next ⟨Tables.fresh, .empty⟩
  (.store (.message (.storeMessage 1700000000 (str "EA1ABC") (str "K1XYZ") (str "73")
    1700000000 [])))

theorem conversations_agree_oneMessage :
    ∃ list, oneMessageDatabase.conversations (str "K1XYZ") = .ok list ∧
      Summaries oneMessageDatabase (str "K1XYZ") list :=
  (conversations_agree (.call .fresh _) rfl).1

end OpenQSP
