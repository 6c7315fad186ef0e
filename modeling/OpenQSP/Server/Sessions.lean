import OpenQSP.Lib.Runs
import OpenQSP.Server.Announcing
import OpenQSP.Server.Handling

/-!
# Sessions

A session that is open is told of every message for its callsign, from the moment at which it was
created. What has been pushed to a connection is therefore a part of the mailbox without gaps, and
where the session is open it reaches to the end of the mailbox.

## Main definitions

* `TCPServer.Registered` — the registry has the sessions of the connections that are served
* `ShowsMailbox`, `ShowsRest` — what objects and pages show of a mailbox
* `Connection.Tracks` — what has been pushed to a connection
* `Served` — the invariant

## Main results

* `Served.announces`, `step_served` — what a step keeps
* **`sessions_trackMailbox`** — in every run
* **`openSessions_missNothing`** — for a client that has read its mailbox once
-/

namespace OpenQSP

open Tables

/-- A mailbox after a new message. -/
theorem Tables.Adds.mailbox {t t' : Tables} {row : (Str × ℕ) × MessageRow} {message : Message}
    (h : t.Adds t' row message) (hconsistent : t.Consistent)
    (callsign : Str) : t'.mailbox callsign =
      t.mailbox callsign ++ if callsign = message.recipient then [row] else [] := by
  rw [h.consistent.mailbox_eq, hconsistent.mailbox_eq, h.rows, List.filter_append]
  congr 1
  by_cases hcallsign : callsign = message.recipient
  · simp [hcallsign, h.recipient]
  · simp [Ne.symm hcallsign, h.recipient, hcallsign]

namespace Tcp

/-- The callsign of the connections that are served. -/
def Phase.callsign? : Phase → Option Str
  | .reading callsign => some callsign
  | .draining callsign => some callsign
  | _ => none

/-- The registry has the sessions of the connections that are served, and no others. -/
def TCPServer.Registered (server : TCPServer) : Prop :=
  ∀ k, server.sessions.get? k =
    (server.connections k).phase.callsign?.map fun callsign => ⟨callsign, true⟩

/-- What has been pushed. -/
def Connection.pushes (c : Connection) : List ProtocolObject := c.written.filterMap Sent.pushed?

/-- The login has not been decided, or no session was created for it yet. -/
def Phase.IsEarly (phase : Phase) : Prop :=
  phase = .authenticating ∨ ∃ callsign, phase = .greeted callsign

/-- The rows of a mailbox behind `since` and up to `upto`, as they are delivered. -/
def ShowsMailbox (t : Tables) (callsign : Str) (since : ℤ) (upto : ℕ)
    (objects : List ProtocolObject) : Prop :=
  List.Forall₂ (fun e object => ∃ message, t.Delivers e message ∧ object = .message message)
    (segment mailboxPosition (t.mailbox callsign) since upto) objects

/-- A page behind `since` that is the last one: it showed all that the mailbox had at that time. -/
def ShowsRest (t : Tables) (login : Login) (frame : Bytes) (responses : List Bytes) : Prop :=
  ∀ since max, decodeFrame frame = .ok (.getNewMessages ⟨since, max⟩) →
    ∀ (objects : List ProtocolObject) (last : End), responses.map decodeFrame = objects.map .ok →
      objects.getLast? = some (.end last) → last.hasMore = false →
        ∃ upto, login.joined ≤ upto ∧ upto ≤ t.highest login.callsign ∧
          ShowsMailbox t login.callsign since upto objects.dropLast

/-- What has been pushed to a connection is the part of the mailbox behind the high-water value that
its session began with; while the session is open, this reaches to the end of the mailbox. -/
structure Connection.Tracks (t : Tables) (c : Connection) : Prop where
  early : c.phase.IsEarly → c.login = none
  served : ∀ callsign, c.phase.callsign? = some callsign →
    ∃ joined, c.login = some ⟨callsign, joined⟩
  silent : c.login = none → c.pushes = [] ∧ c.requests = []
  tracked : ∀ login, c.login = some login → ∃ upto, login.joined ≤ upto ∧
    upto ≤ t.highest login.callsign ∧ ShowsMailbox t login.callsign login.joined upto c.pushes ∧
      (c.phase.callsign?.isSome → c.closing = false → upto = t.highest login.callsign)
  pages : ∀ login, c.login = some login → ∀ request ∈ c.requests,
    ShowsRest t login request.1 request.2

section Tracks

variable {t t' : Tables} {c c' : Connection}

theorem Connection.Tracks.new (t : Tables) : Connection.new.Tracks t where
  early _ := rfl
  served _ h := by cases h
  silent _ := ⟨rfl, rfl⟩
  tracked _ h := by cases h
  pages _ h := by cases h

/-- A connection goes on, or is closed. -/
theorem Connection.Tracks.moved (h : c.Tracks t) (hlogin : c'.login = c.login)
    (hpushes : c'.pushes = c.pushes) (hrequests : c'.requests = c.requests)
    (hearly : c'.phase.IsEarly → c.phase.IsEarly)
    (hphase : c'.phase.callsign? = c.phase.callsign? ∨ c'.phase.callsign? = none)
    (hclosing : c'.closing = false → c.closing = false) : c'.Tracks t := by
  refine ⟨fun hc => ?_, fun callsign hcallsign => ?_, fun hnone => ?_, fun login hlogin' => ?_,
    fun login hlogin' => ?_⟩
  · rw [hlogin]
    exact h.early (hearly hc)
  · rcases hphase with hphase | hphase
    · rw [hlogin]
      exact h.served callsign (hphase ▸ hcallsign)
    · cases hphase.symm.trans hcallsign
  · rw [hpushes, hrequests]
    exact h.silent (hlogin ▸ hnone)
  · obtain ⟨upto, hjoined, hupto, hrows, hopen⟩ := h.tracked login (hlogin ▸ hlogin')
    refine ⟨upto, hjoined, hupto, hpushes ▸ hrows, fun hserved hopen' => ?_⟩
    rcases hphase with hphase | hphase
    · exact hopen (hphase ▸ hserved) (hclosing hopen')
    · rw [hphase] at hserved
      cases hserved
  · rw [hrequests]
    exact h.pages login (hlogin ▸ hlogin')

/-- A session is created. -/
theorem Connection.Tracks.opened (h : c.Tracks t) (hearly : c.phase.IsEarly) (callsign : Str) :
    { c with
      phase := .reading callsign
      login := some ⟨callsign, t.highest callsign⟩ : Connection }.Tracks t := by
  obtain ⟨hpushes, hrequests⟩ := h.silent (h.early hearly)
  refine ⟨fun hc => ?_, fun callsign' hcallsign => ?_, fun hnone => ?_, fun login hlogin => ?_,
    fun login hlogin => ?_⟩
  · rcases hc with hc | ⟨_, hc⟩
    · cases hc
    · cases hc
  · obtain rfl := Option.some.inj hcallsign
    exact ⟨_, rfl⟩
  · cases hnone
  · obtain rfl := Option.some.inj hlogin
    refine ⟨t.highest callsign, le_rfl, le_rfl, ?_, fun _ _ => rfl⟩
    have hnil : segment mailboxPosition (t.mailbox callsign) (t.highest callsign : ℤ)
        (t.highest callsign : ℤ) = [] := by
      refine List.filter_eq_nil_iff.mpr fun e _ hin => ?_
      obtain ⟨hlt, hle⟩ := of_decide_eq_true hin
      omega
    rw [ShowsMailbox, hnil]
    exact hpushes ▸ .nil
  · show ∀ request ∈ c.requests, _
    rw [hrequests]
    exact fun _ hrequest => absurd hrequest List.not_mem_nil

theorem ShowsMailbox.same {callsign : Str} {since : ℤ} {upto : ℕ} {objects : List ProtocolObject}
    (h : ShowsMailbox t callsign since upto objects) (hsame : SameMessages t t') :
    ShowsMailbox t' callsign since upto objects := by
  rw [ShowsMailbox, hsame.mailbox]
  exact h.imp fun e object hobject => by
    obtain ⟨message, hdelivers, rfl⟩ := hobject
    exact ⟨message, hsame.delivers hdelivers, rfl⟩

theorem ShowsRest.same {login : Login} {frame : Bytes} {responses : List Bytes}
    (h : ShowsRest t login frame responses) (hsame : SameMessages t t') :
    ShowsRest t' login frame responses := by
  intro since max hframe objects last hobjects hlast hmore
  obtain ⟨upto, hjoined, hupto, hrows⟩ := h since max hframe objects last hobjects hlast hmore
  rw [hsame.highest]
  exact ⟨upto, hjoined, hupto, hrows.same hsame⟩

/-- The messages stay as they are. -/
theorem Connection.Tracks.same (h : c.Tracks t) (hsame : SameMessages t t') : c.Tracks t' := by
  refine ⟨h.early, h.served, h.silent, fun login hlogin => ?_, fun login hlogin request hrequest =>
    (h.pages login hlogin request hrequest).same hsame⟩
  obtain ⟨upto, hjoined, hupto, hrows, hopen⟩ := h.tracked login hlogin
  rw [hsame.highest]
  exact ⟨upto, hjoined, hupto, hrows.same hsame, hopen⟩

/-! ### A new message -/

section Adds

variable {row : (Str × ℕ) × MessageRow} {message : Message} {callsign : Str} {since : ℤ}
  {joined upto : ℕ} {pushes : List ProtocolObject}

/-- What was shown stays what it was. -/
theorem ShowsMailbox.adds (h : ShowsMailbox t callsign since upto pushes)
    (hadds : t.Adds t' row message) (hconsistent : t.Consistent)
    (hupto : upto ≤ t.highest callsign) : ShowsMailbox t' callsign since upto pushes := by
  have hsegment : segment mailboxPosition (t'.mailbox callsign) since (upto : ℤ) =
      segment mailboxPosition (t.mailbox callsign) since (upto : ℤ) := by
    rw [hadds.mailbox hconsistent]
    refine segment_append fun e he => ?_
    split at he
    · next hcallsign =>
      rw [List.mem_singleton.mp he, mailboxPosition, hadds.sequence, ← hcallsign]
      exact_mod_cast Nat.lt_succ_of_le hupto
    · cases he
  rw [ShowsMailbox, hsegment]
  obtain ⟨hlength, hrows⟩ := List.forall₂_iff_zip.mp h
  refine List.forall₂_iff_zip.mpr ⟨hlength, fun {e object} hzip => ?_⟩
  obtain ⟨value, hdelivers, rfl⟩ := hrows hzip
  have hsegment := (mem_segment.mp (List.of_mem_zip hzip).1).1
  exact ⟨value, hadds.keeps e (hconsistent.mem_mailbox.mp hsegment).1 value hdelivers, rfl⟩

/-- A session that has been told of everything is told of the new message. -/
theorem ShowsMailbox.next
    (h : ShowsMailbox t message.recipient joined (t.highest message.recipient) pushes)
    (hadds : t.Adds t' row message) (hconsistent : t.Consistent)
    (hjoined : joined ≤ t.highest message.recipient) :
    ShowsMailbox t' message.recipient joined (t.highest message.recipient + 1)
      (pushes ++ [.message message]) := by
  have hold := h.adds hadds hconsistent le_rfl
  have hnew : segment mailboxPosition (t'.mailbox message.recipient)
      (t.highest message.recipient : ℤ) ((t.highest message.recipient + 1 : ℕ) : ℤ) = [row] := by
    have hposition : mailboxPosition row = ((t.highest message.recipient + 1 : ℕ) : ℤ) := by
      rw [mailboxPosition, hadds.sequence]
    have hnil : segment mailboxPosition (t.mailbox message.recipient)
        (t.highest message.recipient : ℤ) ((t.highest message.recipient + 1 : ℕ) : ℤ) = [] := by
      refine List.filter_eq_nil_iff.mpr fun e he hin => ?_
      have hle := ((hconsistent.contiguous_mailbox message.recipient).le he).2
      obtain ⟨hlt, -⟩ := of_decide_eq_true hin
      rw [mailboxPosition] at hlt
      omega
    rw [segment] at hnil
    rw [hadds.mailbox hconsistent, if_pos rfl, segment, List.filter_append, hnil,
      List.nil_append]
    refine List.filter_eq_self.mpr fun e he => decide_eq_true ?_
    rw [List.mem_singleton.mp he, hposition]
    push_cast
    omega
  rw [ShowsMailbox, ← segment_append_segment (hadds.consistent.ascending_mailbox _)
    (show (joined : ℤ) ≤ (t.highest message.recipient : ℤ) by exact_mod_cast hjoined)
    (show (t.highest message.recipient : ℤ) ≤ ((t.highest message.recipient + 1 : ℕ) : ℤ) by
      push_cast; omega), hnew]
  exact List.rel_append hold (.cons ⟨message, hadds.delivers, rfl⟩ .nil)

theorem Tables.Adds.highest_le_highest (hadds : t.Adds t' row message) (callsign : Str) :
    t.highest callsign ≤ t'.highest callsign := by
  rw [hadds.highest]
  split
  · exact Nat.le_succ _
  · exact le_rfl

theorem ShowsRest.adds {login : Login} {frame : Bytes} {responses : List Bytes}
    (h : ShowsRest t login frame responses) (hadds : t.Adds t' row message)
    (hconsistent : t.Consistent) : ShowsRest t' login frame responses := by
  intro since max hframe objects last hobjects hlast hmore
  obtain ⟨upto, hjoined, hupto, hrows⟩ := h since max hframe objects last hobjects hlast hmore
  exact ⟨upto, hjoined, hupto.trans (Tables.Adds.highest_le_highest hadds _),
    hrows.adds hadds hconsistent hupto⟩

/-- A connection that is not told of a new message: it is served no more, or it is closing, or its
callsign is another one. -/
theorem Connection.Tracks.missed (h : c.Tracks t) (hadds : t.Adds t' row message)
    (hconsistent : t.Consistent)
    (hmissed : c.phase.callsign? = some message.recipient → c.closing = true) : c.Tracks t' := by
  refine ⟨h.early, h.served, h.silent, fun login hlogin => ?_, fun login hlogin request hrequest =>
    (h.pages login hlogin request hrequest).adds hadds hconsistent⟩
  obtain ⟨upto, hjoined, hupto, hrows, hopen⟩ := h.tracked login hlogin
  refine ⟨upto, hjoined, hupto.trans (Tables.Adds.highest_le_highest hadds _),
    hrows.adds hadds hconsistent hupto, fun hserved hclosing => ?_⟩
  rw [hopen hserved hclosing, hadds.highest, if_neg]
  intro hcallsign
  obtain ⟨callsign, hphase⟩ := Option.isSome_iff_exists.mp hserved
  obtain ⟨joined, hlogin'⟩ := h.served callsign hphase
  have hsame : login.callsign = callsign :=
    congrArg Login.callsign (Option.some.inj (hlogin.symm.trans hlogin'))
  rw [← hsame, hcallsign] at hphase
  cases hclosing.symm.trans (hmissed hphase)

/-- A connection that is told of a new message. -/
theorem Connection.Tracks.told (h : c.Tracks t) (hadds : t.Adds t' row message)
    (hconsistent : t.Consistent)
    (hphase : c.phase.callsign? = some message.recipient) (hclosing : c.closing = false)
    {frame : Bytes} (hframe : encodeFrame (.message message) true = .ok frame) :
    { c with written := c.written ++ [.push frame] : Connection }.Tracks t' := by
  obtain ⟨joined, hlogin⟩ := h.served _ hphase
  have hpushes : { c with written := c.written ++ [.push frame] : Connection }.pushes =
      c.pushes ++ [.message message] := by
    rw [Connection.pushes, Connection.pushes, List.filterMap_append]
    congr 1
    simp [Sent.pushed?, decodeFrameWithFlags_of_encodeFrame hframe, Except.toOption]
  refine ⟨h.early, h.served, fun hnone => ?_, fun login hlogin' => ?_,
    fun login hlogin' request hrequest =>
      (h.pages login hlogin' request hrequest).adds hadds hconsistent⟩
  · cases hnone.symm.trans hlogin
  · obtain rfl := Option.some.inj (hlogin.symm.trans hlogin')
    obtain ⟨upto, hjoined, -, hrows, hopen⟩ := h.tracked _ hlogin
    obtain rfl := hopen (by rw [hphase]; rfl) hclosing
    have hnext := hrows.next hadds hconsistent hjoined
    have hhighest : t'.highest message.recipient = t.highest message.recipient + 1 := by
      rw [hadds.highest, if_pos rfl]
    rw [hpushes]
    exact ⟨t.highest message.recipient + 1, Nat.le_succ_of_le hjoined, hhighest.ge, hnext,
      fun _ _ => hhighest.symm⟩

end Adds

/-! ### A page -/

theorem Phase.IsEarly.callsign? {phase : Phase} (h : phase.IsEarly) : phase.callsign? = none := by
  rcases h with rfl | ⟨_, rfl⟩
  · rfl
  · rfl

/-- The last page of a mailbox. -/
theorem showsMailbox_page (h : t.Consistent) {callsign : Str} {since : ℤ} {n : ℕ}
    {sent : List Message}
    (hsent : List.Forall₂ t.Delivers (page mailboxPosition (t.mailbox callsign) since n) sent)
    (hlast : ¬∃ e ∈ t.mailbox callsign, cursorAfter mailboxPosition since
      (page mailboxPosition (t.mailbox callsign) since n) < mailboxPosition e) :
    ShowsMailbox t callsign since (t.highest callsign) (sent.map .message) := by
  have hpage : page mailboxPosition (t.mailbox callsign) since n =
      segment mailboxPosition (t.mailbox callsign) since (t.highest callsign : ℤ) := by
    rw [page_eq_segment (h.ascending_mailbox callsign)]
    refine List.filter_congr fun e he => decide_eq_decide.mpr (and_congr_right fun _ => ?_)
    have hle : mailboxPosition e ≤ t.highest callsign :=
      Int.ofNat_le.mpr ((h.contiguous_mailbox callsign).le he).2
    exact iff_of_true (not_lt.mp fun hlt => hlast ⟨e, he, hlt⟩) hle
  rw [ShowsMailbox, ← hpage, List.forall₂_map_right_iff]
  exact hsent.imp fun e message hdelivers => ⟨message, hdelivers, rfl⟩

/-- What the core answers to a request for a page. -/
theorem handleGetNewMessages_shows (h : t.Consistent) {callsign : Str} {since max : ℤ}
    (hpos : 0 ≤ since) (hmax : since ≤ maxU32) (hlimit : 1 ≤ max ∧ max ≤ maxRetrievalLimit)
    {objects : List ProtocolObject}
    (hrun : ((handleGetNewMessages ⟨true, true⟩ callsign ⟨since, max⟩).run t).1 = .ok objects)
    {last : End} (hlast : objects.getLast? = some (.end last)) (hmore : last.hasMore = false) :
    ShowsMailbox t callsign since (t.highest callsign) objects.dropLast := by
  by_cases hvalid : ValidCallsign callsign
  · have hcallsign := (validateCallsign_iff "authenticated_callsign").mpr hvalid
    rcases le_or_gt since (t.highest callsign) with hle | hgt
    · obtain ⟨sent, hsent, hok⟩ := handleGetNewMessages_ok true h hcallsign hpos hle hlimit
      rw [hok] at hrun
      obtain rfl := Except.ok.inj hrun
      rw [List.getLast?_concat] at hlast
      obtain rfl := ProtocolObject.end.inj (Option.some.inj hlast)
      rw [List.dropLast_concat]
      exact showsMailbox_page h hsent (of_decide_eq_false hmore)
    · rw [handleGetNewMessages_ahead true h hcallsign hgt hmax hlimit] at hrun
      obtain rfl := Except.ok.inj hrun
      cases hlast
  · rw [handleGetNewMessages, if_neg (by simp), withCallsign_refused hvalid] at hrun
    obtain rfl := Except.ok.inj hrun
    cases hlast

/-- What the core answers to a frame. -/
theorem handleFrame_showsRest {ω : Type} {listeners : List (Listener ω)} {clock : ℤ}
    {callsign : Str} {node : Node ω} (h : node.tables.Consistent) {frame : Bytes}
    {responses : List Bytes}
    (hrun : ((Node.handleFrame listeners clock callsign frame).run node).1 = .ok responses)
    {joined : ℕ} (hjoined : joined ≤ node.tables.highest callsign) :
    ShowsRest node.tables ⟨callsign, joined⟩ frame responses := by
  intro since max hframe objects last hobjects hlast hmore
  refine ⟨node.tables.highest callsign, hjoined, le_rfl, ?_⟩
  rcases handleFrame_eq_ok hrun with ⟨request, answer, hrequest, hdispatch, hencoded⟩ | ⟨hnone, -⟩
  · obtain rfl := Except.ok.inj (hrequest.symm.trans hframe)
    have hanswer : answer = objects :=
      List.map_injective_iff.mpr (fun _ _ => Except.ok.inj)
        ((map_decodeFrame hencoded).symm.trans hobjects)
    subst hanswer
    obtain ⟨hpos, hmax, hlimit⟩ := getNewMessages_of_decodeFrame hframe
    rw [Node.run_dispatch] at hdispatch
    split at hdispatch
    · cases hdispatch
    · next responses' events t' hread =>
      obtain rfl := Except.ok.inj (Prod.mk.inj hdispatch).1
      have hread : ((handleGetNewMessages ⟨true, true⟩ callsign ⟨since, max⟩ >>=
        fun responses => pure (responses, ([] : List Message))).run node.tables) =
          (.ok (responses', events), t') := hread
      rw [Method.run_bind_pure] at hread
      obtain ⟨_, hpage, heq⟩ := Py.map_eq_ok.mp (Prod.mk.inj hread).1
      obtain ⟨rfl, -⟩ := Prod.mk.inj heq
      exact handleGetNewMessages_shows h hpos hmax hlimit hpage hlast hmore
  · exact absurd hframe (hnone _)

/-- A frame that raised has no page. -/
theorem showsRest_nil (t : Tables) (login : Login) (frame : Bytes) :
    ShowsRest t login frame [] := by
  intro since max _ objects last hobjects hlast _
  rw [List.map_eq_nil_iff.mp hobjects.symm] at hlast
  cases hlast

/-- A request is handled. -/
theorem Connection.Tracks.requested (h : c.Tracks t) {callsign : Str}
    (hserved : c.phase.callsign? = some callsign) (hlogin : c'.login = c.login)
    (hpushes : c'.pushes = c.pushes) {request : Bytes × List Bytes}
    (hrequests : c'.requests = c.requests ++ [request])
    (hphase : c'.phase.callsign? = some callsign) (hclosing : c'.closing = c.closing)
    (hpage : ∀ login, c.login = some login → ShowsRest t login request.1 request.2) :
    c'.Tracks t := by
  obtain ⟨joined, hlogin'⟩ := h.served callsign hserved
  refine ⟨fun hearly => ?_, fun callsign' hcallsign => ?_, fun hnone => ?_, fun login hsome => ?_,
    fun login hsome => ?_⟩
  · cases hearly.callsign?.symm.trans hphase
  · obtain rfl := Option.some.inj (hphase.symm.trans hcallsign)
    exact ⟨joined, hlogin.trans hlogin'⟩
  · cases hnone.symm.trans (hlogin.trans hlogin')
  · obtain ⟨upto, hjoined, hupto, hrows, hopen⟩ := h.tracked login (hlogin ▸ hsome)
    refine ⟨upto, hjoined, hupto, hpushes ▸ hrows, fun _ hopen' => ?_⟩
    exact hopen (by rw [hserved]; rfl) (hclosing ▸ hopen')
  · rw [hrequests]
    intro request' hrequest
    rcases List.mem_append.mp hrequest with hold | hnew
    · exact h.pages login (hlogin ▸ hsome) request' hold
    · rw [List.mem_singleton.mp hnew]
      exact hpage login (hlogin ▸ hsome)

end Tracks

/-! ### The server -/

section Served

variable {ω : Type} {setup : TCPSetup ω} {node node' : TCPNode ω}

/-- The database is consistent, the registry has the sessions of the connections that are served,
and these have been told of their mailboxes. -/
structure Served (node : TCPNode ω) : Prop where
  consistent : node.tables.Consistent
  registered : node.server.Registered
  tracks : ∀ k, (node.connection k).Tracks node.tables

theorem TCPServer.Registered.mem_activeFor {server : TCPServer} (h : server.Registered)
    {callsign : Str} {k : ℕ} :
    k ∈ server.activeFor callsign ↔ (server.connections k).phase.callsign? = some callsign := by
  rw [activeFor, List.mem_map]
  constructor
  · rintro ⟨⟨k', session⟩, hmem, rfl⟩
    obtain ⟨hentry, hsession⟩ := List.mem_filter.mp hmem
    have hget := OrderedDict.get?_eq_some_iff.mpr hentry
    rw [h k'] at hget
    obtain ⟨callsign', hphase, rfl⟩ := Option.map_eq_some_iff.mp hget
    rw [hphase]
    exact congrArg some (of_decide_eq_true hsession)
  · intro hphase
    have hget := h k
    rw [hphase] at hget
    refine ⟨⟨k, ⟨callsign, true⟩⟩, List.mem_filter.mpr ⟨OrderedDict.get?_eq_some_iff.mp hget, ?_⟩,
      rfl⟩
    exact decide_eq_true rfl

/-- One connection and its session change. -/
theorem Served.replace (h : Served node) {k : ℕ} {c : Connection}
    {sessions : OrderedDict ℕ AuthenticatedSession}
    (hk : sessions.get? k = c.phase.callsign?.map fun callsign => ⟨callsign, true⟩)
    (hothers : ∀ j, j ≠ k → sessions.get? j = node.server.sessions.get? j)
    (htracks : c.Tracks node.tables) :
    Served (node.onServer fun server =>
      { connections := Function.update server.connections k c, sessions }) := by
  refine ⟨h.consistent, fun j => ?_, fun j => ?_⟩
  · show sessions.get? j =
      (Function.update node.server.connections k c j).phase.callsign?.map _
    by_cases hj : j = k
    · subst hj
      rw [hk, Function.update_self]
    · rw [hothers j hj, Function.update_of_ne hj, h.registered j]
  · show (Function.update node.server.connections k c j).Tracks node.tables
    by_cases hj : j = k
    · subst hj
      rw [Function.update_self]
      exact htracks
    · rw [Function.update_of_ne hj]
      exact h.tracks j

/-- One connection changes, and keeps its session. -/
theorem Served.update (h : Served node) {k : ℕ} {f : Connection → Connection}
    (hphase : (f (node.connection k)).phase.callsign? = (node.connection k).phase.callsign?)
    (htracks : (f (node.connection k)).Tracks node.tables) :
    Served (node.onServer (.update k f)) :=
  h.replace ((h.registered k).trans (congrArg _ hphase.symm)) (fun _ _ => rfl) htracks

theorem Served.finish (h : Served node) (k : ℕ) : Served (finish k node) := by
  have hended : { node.connection k with
      phase := .ended, closing := true : Connection }.Tracks node.tables := by
    refine (h.tracks k).moved rfl rfl rfl ?_ (.inr rfl) ?_
    · rintro (hphase | ⟨_, hphase⟩)
      · cases hphase
      · cases hphase
    · intro hclosing
      cases hclosing
  exact h.replace (OrderedDict.get?_erase_self _ k) (fun j hj => OrderedDict.get?_erase_of_ne hj)
    hended

theorem ShowsRest.announces {login : Login} {frame : Bytes} {responses : List Bytes}
    (h : ShowsRest node.tables login frame responses) (hconsistent : node.tables.Consistent)
    (hannounces : Announces node node') : ShowsRest node'.tables login frame responses := by
  cases hannounces with
  | nothing same => exact h.same same
  | message adds => exact h.adds adds hconsistent

/-- What the core does for a request keeps the invariant. -/
theorem Served.announces (h : Served node) (hannounces : Announces node node') : Served node' := by
  have hphase : ∀ k, (node'.connection k).phase = (node.connection k).phase := by
    intro k
    obtain ⟨pushed, hk, -⟩ := hannounces.connection k
    rw [hk]
  cases hannounces with
  | nothing same server =>
    refine ⟨h.consistent.of_sameMessages same, ?_, fun k => ?_⟩
    · rw [server]
      exact h.registered
    · rw [Node.connection, server]
      exact (h.tracks k).same same
  | @message row message frame adds encoded server =>
    refine ⟨adds.consistent, fun k => ?_, fun k => ?_⟩
    · have hk := hphase k
      rw [Node.connection, Node.connection] at hk
      rw [hk, server]
      exact h.registered k
    · rw [Node.connection, server, TCPServer.push, TCPServer.pushAll]
      dsimp only
      split
      · next hopen =>
        exact (h.tracks k).told adds h.consistent (h.registered.mem_activeFor.mp hopen.1) hopen.2
          encoded
      · next hclosed =>
        refine (h.tracks k).missed adds h.consistent fun hserved => ?_
        by_contra hclosing
        exact hclosed ⟨h.registered.mem_activeFor.mpr hserved, Bool.eq_false_iff.mpr hclosing⟩

/-- A connection changes in nothing that concerns its session. -/
theorem Served.quiet (h : Served node) {k : ℕ} {f : Connection → Connection}
    (hlogin : (f (node.connection k)).login = (node.connection k).login)
    (hpushes : (f (node.connection k)).pushes = (node.connection k).pushes)
    (hrequests : (f (node.connection k)).requests = (node.connection k).requests)
    (hphase : (f (node.connection k)).phase.callsign? = (node.connection k).phase.callsign?)
    (hearly : (f (node.connection k)).phase.IsEarly → (node.connection k).phase.IsEarly)
    (hclosing : (f (node.connection k)).closing = false → (node.connection k).closing = false) :
    Served (node.onServer (.update k f)) :=
  h.update hphase ((h.tracks k).moved hlogin hpushes hrequests hearly (.inl hphase) hclosing)

theorem Served.serveLine (h : Served node) {k : ℕ}
    (hphase : (node.connection k).phase = .authenticating) (authenticate : Str → Str → Py Str) :
    Served (serveLine setup k authenticate node) := by
  rw [Tcp.serveLine]
  split
  · exact h.finish k
  · refine h.quiet rfl rfl rfl ?_ (fun _ => .inl hphase) (fun hclosing => hclosing)
    rw [hphase]
    rfl

theorem Served.openSession (h : Served node) {k : ℕ} (callsign : Str)
    (hphase : (node.connection k).phase = .greeted (some callsign)) :
    Served (openSession k callsign node) := by
  rw [Tcp.openSession]
  split
  · exact h.finish k
  · exact h.replace (OrderedDict.get?_set_self _ _ _) (fun j hj => OrderedDict.get?_set_of_ne hj)
      ((h.tracks k).opened (.inr ⟨_, hphase⟩) callsign)

theorem Served.serveFrame (h : Served node) {k : ℕ} {callsign : Str}
    (hphase : (node.connection k).phase = .reading callsign) (frame rest : Bytes) (clock : ℤ) :
    Served (serveFrame setup k callsign frame rest clock node) := by
  rw [Tcp.serveFrame]
  split
  · exact h.finish k
  have hread : Served (node.onServer (.update k fun c => { c with unread := rest })) :=
    h.quiet rfl rfl rfl rfl (fun hearly => hearly) (fun hclosing => hclosing)
  have hannounces := handleFrame_announces setup hread.consistent clock callsign frame
  have hhandled := hread.announces hannounces
  have hreading : ((node.onServer (.update k fun c => { c with unread := rest })).connection
      k).phase.callsign? = some callsign := by
    show (Function.update node.server.connections k _ k).phase.callsign? = _
    rw [Function.update_self]
    exact congrArg Phase.callsign? hphase
  obtain ⟨pushed, hconnection, -⟩ := hannounces.connection k
  have hserved : (((Node.handleFrame setup.listeners clock callsign frame).run
      (node.onServer (.update k fun c => { c with unread := rest }))).2.connection
        k).phase.callsign? = some callsign := by
    rw [hconnection]
    exact hreading
  dsimp only
  split
  · next responses hresponses =>
    refine hhandled.update hserved.symm
      ((hhandled.tracks k).requested hserved rfl ?_ rfl rfl rfl ?_)
    · have hnone : (responses.map Sent.response).filterMap Sent.pushed? = [] := by
        rw [List.filterMap_map]
        exact List.filterMap_eq_nil_iff.mpr fun _ _ => rfl
      rw [Connection.pushes, List.filterMap_append, hnone, List.append_nil]
      rfl
    · intro login hlogin
      rw [hconnection] at hlogin
      obtain ⟨joined, hlogin'⟩ := (hread.tracks k).served callsign hreading
      obtain rfl := Option.some.inj (hlogin.symm.trans hlogin')
      obtain ⟨upto, hjoined, hupto, -⟩ := (hread.tracks k).tracked _ hlogin'
      exact (handleFrame_showsRest hread.consistent hresponses (hjoined.trans hupto)).announces
        hread.consistent hannounces
  · refine Served.finish (hhandled.update rfl
      ((hhandled.tracks k).requested hserved rfl rfl rfl hserved rfl ?_)) k
    exact fun login _ => showsRest_nil _ login frame

theorem Served.resume (h : Served node) (k : ℕ) (authenticate : Str → Str → Py Str) (clock : ℤ) :
    Served (resume setup k authenticate clock node) := by
  rw [Tcp.resume]
  split
  · next hphase =>
    split
    · exact h.serveLine hphase authenticate
    · exact h
  · exact h.finish k
  · next callsign hphase => exact h.openSession callsign hphase
  · next callsign hphase =>
    split
    · exact h.serveFrame hphase _ _ clock
    · split
      · exact h.finish k
      · exact h
  · next callsign hphase =>
    refine h.quiet rfl rfl rfl ?_ (fun hearly => ?_)
      (fun hclosing => hclosing)
    · rw [hphase]
      rfl
    · cases hearly.callsign?
  · exact h

/-- What one step keeps. -/
theorem step_served (h : Served node) (input : Input) : Served (step setup node input) := by
  cases input with
  | data k bytes =>
    have hfeed : ∀ c : Connection, (c.feed bytes).login = c.login ∧
        (c.feed bytes).pushes = c.pushes ∧ (c.feed bytes).requests = c.requests ∧
        (c.feed bytes).phase = c.phase ∧ (c.feed bytes).closing = c.closing := by
      intro c
      rw [Connection.feed]
      split
      · exact ⟨rfl, rfl, rfl, rfl, rfl⟩
      · exact ⟨rfl, rfl, rfl, rfl, rfl⟩
    obtain ⟨hlogin, hpushes, hrequests, hphase, hclosing⟩ := hfeed (node.connection k)
    exact h.quiet hlogin hpushes hrequests (by rw [hphase]) (fun hearly => hphase ▸ hearly)
      (fun hopen => hclosing ▸ hopen)
  | eof k => exact h.quiet rfl rfl rfl rfl (fun hearly => hearly) (fun hclosing => hclosing)
  | closing k =>
    refine h.quiet rfl rfl rfl rfl (fun hearly => hearly) (fun hclosing => ?_)
    cases hclosing
  | resume k authenticate clock => exact h.resume k authenticate clock
  | fail k =>
    rw [step]
    split
    · exact h
    · exact h.finish k
  | send call => exact h.announces (sendMessage_announces h.consistent call)
  | database change keeps =>
    exact ⟨h.consistent.of_sameMessages (keeps _), h.registered,
      fun k => (h.tracks k).same (keeps _)⟩

theorem serverAfter_served (setup : TCPSetup ω) (calls : List DatabaseCall) (outside : ω)
    (inputs : List Input) : Served (serverAfter setup calls outside inputs) := by
  induction inputs using List.reverseRecOn with
  | nil =>
    exact ⟨(sound_databaseState calls).messages, fun _ => rfl, fun _ => .new _⟩
  | append_singleton inputs input ih =>
    rw [serverAfter, List.foldl_append]
    exact step_served ih input

/-- **Sessions are told of everything.** In every run, over any connections, frames and failures in
any order: the registry has exactly the sessions of the connections that are served. What has been
pushed to a connection is the part of the mailbox of its callsign behind the high-water value at its
login, each message once and in order, and where the session is open, up to the last message.
Nothing is pushed to a connection without a login. -/
theorem sessions_trackMailbox (setup : TCPSetup ω) (calls : List DatabaseCall) (outside : ω)
    (inputs : List Input) :
    (serverAfter setup calls outside inputs).server.Registered ∧
    ∀ k, ((serverAfter setup calls outside inputs).connection k).Tracks
      (serverAfter setup calls outside inputs).tables :=
  have h := serverAfter_served setup calls outside inputs
  ⟨h.registered, h.tracks⟩

/-- **Nothing is missed.** A client with an open session has once read its mailbox from a cursor to
the end. Then each message of its mailbox behind that cursor was in this page or has been pushed,
whenever it was stored. -/
theorem openSessions_missNothing (setup : TCPSetup ω) (calls : List DatabaseCall) (outside : ω)
    (inputs : List Input) (k : ℕ) {callsign : Str}
    (hserved : ((serverAfter setup calls outside inputs).connection k).phase.callsign? =
      some callsign)
    (hopen : ((serverAfter setup calls outside inputs).connection k).closing = false)
    {frame : Bytes} {responses : List Bytes}
    (hrequest : (frame, responses) ∈
      ((serverAfter setup calls outside inputs).connection k).requests) {since max : ℤ}
    (hframe : decodeFrame frame = .ok (.getNewMessages ⟨since, max⟩))
    {objects : List ProtocolObject} (hobjects : responses.map decodeFrame = objects.map .ok)
    {last : End} (hlast : objects.getLast? = some (.end last)) (hmore : last.hasMore = false) :
    ∀ e ∈ (serverAfter setup calls outside inputs).tables.mailbox callsign,
      since < mailboxPosition e → ∃ message,
        (serverAfter setup calls outside inputs).tables.Delivers e message ∧
        (.message message ∈ objects ∨
          .message message ∈ ((serverAfter setup calls outside inputs).connection k).pushes) := by
  have hafter := serverAfter_served setup calls outside inputs
  have h := hafter.tracks k
  obtain ⟨joined, hlogin⟩ := h.served callsign hserved
  obtain ⟨upto, hjoined, -, hpage⟩ :=
    h.pages _ hlogin _ hrequest since max hframe objects last hobjects hlast hmore
  obtain ⟨highest, -, -, hpushes, hreaches⟩ := h.tracked _ hlogin
  obtain rfl := hreaches (by rw [hserved]; rfl) hopen
  intro e he hsince
  have hle := ((hafter.consistent.contiguous_mailbox callsign).le he).2
  by_cases hupto : mailboxPosition e ≤ upto
  · obtain ⟨object, hobject, message, hdelivers, rfl⟩ :=
      Py.exists_of_mem_forall₂ hpage.flip (mem_segment.mpr ⟨he, hsince, hupto⟩)
    exact ⟨message, hdelivers, .inl (List.mem_of_mem_dropLast hobject)⟩
  · have hjoined : (joined : ℤ) ≤ upto := Int.ofNat_le.mpr hjoined
    obtain ⟨object, hobject, message, hdelivers, rfl⟩ :=
      Py.exists_of_mem_forall₂ hpushes.flip (mem_segment.mpr ⟨he,
        lt_of_le_of_lt hjoined (not_le.mp hupto), Int.ofNat_le.mpr hle⟩)
    exact ⟨message, hdelivers, .inr hobject⟩

end Served

/-- A server that admits whoever names a callsign. -/
def openServer : TCPSetup Unit := ⟨false, true, [], []⟩

/-- A message that waits in the mailbox. -/
def waiting : List DatabaseCall :=
  [.message (.storeMessage 1700000000 (str "EA2DEF") (str "K1XYZ") (str "first") 1700000000 [])]

/-- A client logs in and reads the message in its mailbox; then another one is sent to it. -/
def visit : List Input :=
  [.data 0 (handshakePrefix ++ [75, 49, 88, 89, 90, 10]), .resume 0 (fun _ _ => .ok []) 0,
    .resume 0 (fun _ _ => .ok []) 0, .data 0 [1, 2, 0, 5, 0, 0, 0, 0, 20],
    .resume 0 (fun _ _ => .ok []) 0,
    .send ⟨str "EA1ABC", str "K1XYZ", str "73", 1700000000, none, [], 1700000001⟩]

/-- What the client reads. -/
def visitPage : List ProtocolObject :=
  [.message ⟨1, 1, 1700000000, str "EA2DEF", str "K1XYZ", str "first"⟩,
    .end ⟨.getNewMessages, 1, 1, false⟩]

theorem openSessions_missNothing_visit :
    ((serverAfter openServer waiting () visit).tables.mailbox (str "K1XYZ")).length = 2 ∧
    ∀ e ∈ (serverAfter openServer waiting () visit).tables.mailbox (str "K1XYZ"),
      0 < mailboxPosition e → ∃ message,
        (serverAfter openServer waiting () visit).tables.Delivers e message ∧
        (.message message ∈ visitPage ∨
          .message message ∈ ((serverAfter openServer waiting () visit).connection 0).pushes) := by
  have hserved : ((serverAfter openServer waiting () visit).connection 0).phase.callsign? =
      some (str "K1XYZ") := by decide +kernel
  obtain ⟨responses, hrequests, hobjects⟩ : ∃ responses,
      ((serverAfter openServer waiting () visit).connection 0).requests =
        [([1, 2, 0, 5, 0, 0, 0, 0, 20], responses)] ∧
      responses.map decodeFrame = visitPage.map .ok := by
    refine ⟨(((serverAfter openServer waiting () visit).connection 0).requests.map
      Prod.snd).flatten, ?_, ?_⟩ <;> decide +kernel
  have hframe : decodeFrame [1, 2, 0, 5, 0, 0, 0, 0, 20] = .ok (.getNewMessages ⟨0, 20⟩) := by
    decide +kernel
  have hopen : ((serverAfter openServer waiting () visit).connection 0).closing = false := by
    decide +kernel
  exact ⟨by decide +kernel, openSessions_missNothing openServer waiting () visit 0 hserved hopen
    (hrequests ▸ List.mem_singleton_self _) hframe hobjects rfl rfl⟩

end Tcp

end OpenQSP
