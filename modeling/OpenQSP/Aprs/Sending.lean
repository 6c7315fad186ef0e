import OpenQSP.Aprs.Line
import OpenQSP.Aprs.Replying
import OpenQSP.Aprs.Transmission

/-!
# What `poll` sends

Every packet that `poll` returns is from the service to a valid address, and its body is printable.
So each of the lines that are written from them reads back as its packet, unless the address does
not fit the field of nine characters: an address may have twelve characters and an SSID.

## Main definitions

* `Posts` — what a method adds to the packets that wait for the next `poll`
* `SendsLines` — the invariant: whatever is held may be sent

## Main results

* `encodeControl_printable`, `fragmentBody_printable`, `Parcel.Carries.sendable`
* `receive_posts`, `runState_sendsLines`
* **`line_roundTrip_iff`** — which lines of a run read back as their packets
-/

namespace OpenQSP

open APRSAdapter Method

variable {setup : Setup} {peer : Str} {key : TransactionKey} {now : ℚ}

/-! ### Bodies -/

theorem PyChar.isPrintable_of_isBase36 {c : PyChar} (h : c.isBase36) : c.isPrintable := by
  simp only [isBase36, isDigit, isUpper, Bool.or_eq_true, Bool.and_eq_true, decide_eq_true_eq] at h
  rw [PyChar.isPrintable_iff]
  omega

/-- basE91 text is printable. -/
theorem isPrintable_base91Encode {data : Bytes} : ∀ c ∈ base91Encode data, c.isPrintable := by
  have hall : ∀ c ∈ base91Alphabet, c.isPrintable := by decide +kernel
  exact fun c hc => hall c (mem_base91Alphabet_of_mem_base91Encode c hc)

theorem encodeControl_printable {kind : String} {transactionId : Str} {payload : Bytes} {body : Str}
    (hkind : ∀ c ∈ str kind, c.isPrintable)
    (h : encodeControl kind transactionId payload = .ok body) : ∀ c ∈ body, c.isPrintable := by
  obtain ⟨byte, -, h⟩ := Py.bind_eq_ok.mp h
  obtain rfl := Except.ok.inj h
  exact fun c hc => (List.mem_append.mp hc).elim (hkind c) (isPrintable_base91Encode c)

theorem encodeMissing_printable {transactionId : Str} {missing : Finset ℕ} {body : Str}
    (h : encodeMissing transactionId missing = .ok body) : ∀ c ∈ body, c.isPrintable := by
  obtain ⟨_, -, h⟩ := Py.bind_eq_ok.mp h
  obtain ⟨_, -, h⟩ := Py.bind_eq_ok.mp h
  exact encodeControl_printable (by decide) h

theorem fragmentBody_printable {fragment : APRSFragment} {body : Str}
    (hversion : fragment.version = 2) (h : fragment.body = .ok body) : ∀ c ∈ body, c.isPrintable := by
  rw [APRSFragment.body, if_pos hversion] at h
  obtain ⟨byte, -, h⟩ := Py.bind_eq_ok.mp h
  obtain ⟨_, -, h⟩ := Py.bind_eq_ok.mp h
  cases hraw : fragment.rawData with
  | none =>
    rw [hraw] at h
    cases h
  | some raw =>
    rw [hraw] at h
    obtain ⟨_, -, h⟩ := Py.bind_eq_ok.mp h
    obtain rfl := Except.ok.inj h
    intro c hc
    rcases List.mem_append.mp hc with hc | hc
    · have hall : ∀ c ∈ str "Q2", c.isPrintable := by decide
      exact hall c hc
    · exact isPrintable_base91Encode c hc

/-- Every fragment of the compact profile is of its version. -/
theorem version_of_fragmentFrameV2 {frame : Bytes} {transactionId : Str}
    {fragments : List APRSFragment} (h : fragmentFrameV2 frame transactionId = .ok fragments) :
    ∀ fragment ∈ fragments, fragment.version = 2 := by
  obtain ⟨_, -, h⟩ := Py.bind_eq_ok.mp h
  obtain ⟨_, -, h⟩ := Py.bind_eq_ok.mp h
  obtain ⟨_, -, h⟩ := Py.bind_eq_ok.mp h
  obtain ⟨_, -, h⟩ := Py.bind_eq_ok.mp h
  obtain rfl := Except.ok.inj h
  intro fragment hfragment
  obtain ⟨piece, -, rfl⟩ := List.mem_map.mp hfragment
  rfl

/-- The packets of a transaction may be sent. -/
theorem Parcel.Carries.sendable {p : Parcel} (h : p.Carries setup) (haddressed : p.Addressed) :
    ∀ packet ∈ p.packets, packet.Sendable setup := by
  obtain ⟨hfragments, bodies, hbodies, hpackets⟩ := h
  intro packet hpacket
  rw [hpackets] at hpacket
  obtain ⟨body, hbody, rfl⟩ := List.mem_map.mp hpacket
  obtain ⟨fragment, hfragment, hbody⟩ := Py.exists_of_mem_mapM hbodies hbody
  exact ⟨rfl, haddressed,
    fragmentBody_printable (version_of_fragmentFrameV2 hfragments fragment hfragment) hbody⟩

/-! ### Packets that wait for the next `poll` -/

/-- What waits afterwards waited before, or it may be sent; and every incomplete transaction was
there before, or it is of a valid address. -/
structure Posts (setup : Setup) (s s' : APRSAdapter) : Prop where
  immediate : ∀ packet ∈ s'.immediate, packet ∈ s.immediate ∨ packet.Sendable setup
  progress : ∀ k ∈ s'.rxProgress.keys, k ∈ s.rxProgress.keys ∨ validatePeer k.1 = .ok k.1

instance : IsPreorder APRSAdapter (Posts setup) where
  refl _ := ⟨fun _ h => .inl h, fun _ h => .inl h⟩
  trans _ _ _ h h' := ⟨fun packet hpacket => (h'.immediate packet hpacket).elim (h.immediate packet)
    .inr, fun k hk => (h'.progress k hk).elim (h.progress k) .inr⟩

theorem Posts.of_eq {s s' : APRSAdapter} (himmediate : s'.immediate = s.immediate)
    (hprogress : s'.rxProgress = s.rxProgress) : Posts setup s s' :=
  ⟨fun _ h => .inl (himmediate ▸ h), fun _ h => .inl (hprogress ▸ h)⟩

theorem KeepsOuter.posts {α : Type} {m : Adapter α} (h : KeepsOuter m) : m.Moves (Posts setup) :=
  h.mono fun _ _ h => .of_eq (congrArg Prod.snd h) (congrArg (fun o => o.1.rxProgress) h)

theorem modify_posts {f : APRSAdapter → APRSAdapter}
    (h : ∀ s, (f s).immediate = s.immediate ∧ (f s).rxProgress = s.rxProgress) :
    (modify f : Adapter Unit).Moves (Posts setup) :=
  Moves.modify fun s => .of_eq (h s).1 (h s).2

/-- The progress of a transaction of a valid address is noted, or one is forgotten. -/
theorem modifyProgress_posts {f : APRSAdapter → OrderedDict TransactionKey RxProgress}
    (h : ∀ s, ∀ k ∈ (f s).keys, k ∈ s.rxProgress.keys ∨ validatePeer k.1 = .ok k.1) :
    (modify fun s => { s with rxProgress := f s } : Adapter Unit).Moves (Posts setup) :=
  Moves.modify fun s => ⟨fun _ h => .inl h, h s⟩

theorem setProgress_posts (hpeer : validatePeer key.1 = .ok key.1) (f : APRSAdapter → RxProgress) :
    (modify fun s => { s with rxProgress := s.rxProgress.set key (f s) } : Adapter Unit).Moves
      (Posts setup) := by
  refine modifyProgress_posts fun s k hk => ?_
  rw [OrderedDict.keys_set] at hk
  split at hk
  · exact .inl hk
  · refine (List.mem_append.mp hk).imp id fun hk => ?_
    rw [List.mem_singleton.mp hk]
    exact hpeer

theorem eraseProgress_posts (key : TransactionKey) :
    (modify fun s => { s with rxProgress := s.rxProgress.erase key } : Adapter Unit).Moves
      (Posts setup) :=
  modifyProgress_posts fun _ _ hk => .inl ((List.filter_sublist.map Prod.fst).subset hk)

/-- An answer may be sent. -/
theorem Reply.sendable {packet : OutboundPacket} (h : Reply setup peer packet)
    (hpeer : validatePeer peer = .ok peer) : packet.Sendable setup := by
  cases h with
  | rejected base36 =>
    refine ⟨rfl, hpeer, fun c hc => ?_⟩
    have hall : ∀ c ∈ str "rej", c.isPrintable := by decide
    rcases List.mem_append.mp hc with hc | hc
    · exact hall c hc
    · exact PyChar.isPrintable_of_isBase36 (List.all_eq_true.mp base36 c hc)
  | acknowledged encoded => exact ⟨rfl, hpeer, encodeControl_printable (by decide) encoded⟩
  | stored encoded => exact ⟨rfl, hpeer, encodeControl_printable (by decide) encoded⟩

/-- Only the transaction of a valid address joins the incomplete ones. -/
theorem Received.progress_keys {body : Str} {i i' : Inbound} {outcome : Py Disposition}
    (h : Received setup peer body now i outcome i') :
    ∀ k ∈ i'.rxProgress.keys, k ∈ i.rxProgress.keys ∨ validatePeer k.1 = .ok k.1 := by
  have hnote : ∀ {fragment : APRSFragment}, parsePacket peer body = .ok (peer, fragment) →
      ∀ k ∈ ((i.lookUp setup (peer, fragment.transactionId) now).note setup
        (peer, fragment.transactionId) fragment now).rxProgress.keys,
        k ∈ i.rxProgress.keys ∨ validatePeer k.1 = .ok k.1 := by
    intro fragment parsed k hk
    obtain ⟨e, he, rfl⟩ := List.mem_map.mp hk
    rcases OrderedDict.mem_entries_set.mp he with rfl | ⟨he, -⟩
    · exact .inr (parsePacket_eq_ok parsed).2.1
    · exact .inl (List.mem_map_of_mem he)
  have hforget : ∀ {j : Inbound} {key k : TransactionKey}, k ∈ (j.forget key).rxProgress.keys →
      k ∈ j.rxProgress.keys := fun hk => (List.filter_sublist.map Prod.fst).subset hk
  cases h with
  | noFragment => exact fun _ hk => .inl hk
  | replayed => exact fun _ hk => .inl (hforget hk)
  | collected parsed => exact hnote parsed
  | rejected => exact fun _ hk => .inl (hforget hk)
  | crashed parsed => exact hnote parsed
  | complete parsed _ _ effect again =>
    refine fun k hk => hnote parsed k ?_
    rcases again with rfl | rfl
    · exact effect.tables_eq.2 ▸ hforget hk
    · exact effect.tables_eq.2 ▸ hforget hk
  | raised parsed _ _ effect again =>
    refine fun k hk => hnote parsed k ?_
    rcases again with rfl | rfl
    · exact effect.tables_eq.2 ▸ hk
    · exact effect.tables_eq.2 ▸ hk

/-- Whatever is received, what is answered at once may be sent. -/
theorem receive_posts {body : Str} : (receive setup peer body now).Moves (Posts setup) := by
  intro s
  have hreceived : Received setup peer body now s.inbound _ _ := receive_received s
  refine ⟨fun packet hpacket => (receive_replies s packet hpacket).imp_right ?_,
    hreceived.progress_keys⟩
  rintro ⟨peer', hpeer, hreply⟩
  exact hreply.sendable hpeer

/-! ### Polling -/

/-- Every control among the emissions may be sent. -/
def ControlsSendable (setup : Setup) (emissions : List Emission) : Prop :=
  ∀ packet, .control packet ∈ emissions → packet.Sendable setup

section Poll

variable {e : TransactionKey × RxProgress}

theorem pollProgress_posts (hpeer : validatePeer e.1.1 = .ok e.1.1) :
    (pollProgress setup now e).Moves (Posts setup) := by
  refine Moves.ite (Moves.pure _) (Moves.ite ?_ ?_)
  · exact Moves.bind (eraseProgress_posts _) fun _ => Moves.pure _
  · exact Moves.bind (Moves.ofExcept _) fun _ =>
      Moves.bind (setProgress_posts hpeer _) fun _ => Moves.pure _

theorem pollActive_posts (e : Str × BurstTx) : (pollActive setup now e).Moves (Posts setup) := by
  have hfail : (do failOutbound setup e.1 e.2; return ([] : List Emission)).Moves (Posts setup) :=
    Moves.bind (failOutbound_keepsOuter _).posts fun _ => Moves.pure _
  rw [pollActive]
  split
  · exact Moves.pure _
  · exact hfail
  · refine Moves.ite hfail (Moves.get_bind fun s => Moves.ite ?_ ?_)
    · exact Moves.bind (modify_posts fun _ => ⟨rfl, rfl⟩) fun _ => Moves.pure _
    · exact Moves.bind (modify_posts fun _ => ⟨rfl, rfl⟩) fun _ => Moves.pure _

theorem pollQueued_posts (tx : BurstTx) : (pollQueued setup now tx).Moves (Posts setup) := by
  refine Moves.get_bind fun s => Moves.ite (Moves.pure _) (Moves.ite (Moves.pure _) ?_)
  exact Moves.bind (modify_posts fun _ => ⟨rfl, rfl⟩) fun _ => Moves.pure _

end Poll

/-- Whatever waits for the next `poll` may be sent, and every incomplete transaction is of a valid
address. -/
structure SendsLines (setup : Setup) (s : APRSAdapter) : Prop where
  immediate : ∀ packet ∈ s.immediate, packet.Sendable setup
  progress : ∀ k ∈ s.rxProgress.keys, validatePeer k.1 = .ok k.1

theorem SendsLines.posts {s s' : APRSAdapter} (h : SendsLines setup s) (hposts : Posts setup s s') :
    SendsLines setup s' where
  immediate packet hpacket := (hposts.immediate packet hpacket).elim (h.immediate packet) id
  progress k hk := (hposts.progress k hk).elim (h.progress k) id

theorem pollEmissions_posts {s : APRSAdapter} (h : SendsLines setup s) :
    (pollEmissions setup now).Yields s fun _ s' => SendsLines setup s' := by
  have htake : takeImmediate.Yields s fun _ s' => s' = { s with immediate := [] } := rfl
  have h₁ : SendsLines setup { s with immediate := [] } :=
    ⟨fun _ hmem => absurd hmem List.not_mem_nil, h.progress⟩
  have hprogress : (pollAllProgress setup now).Yields { s with immediate := [] } fun _ s' =>
      Posts setup { s with immediate := [] } s' :=
    Yields.get_bind (Yields.of_moves (Moves.mapM fun e he =>
      pollProgress_posts (h.progress e.1 (List.mem_map_of_mem he))))
  have hactive : (pollAllActive setup now).Moves (Posts setup) :=
    Moves.get_bind fun _ => Moves.mapM fun e _ => pollActive_posts e
  have hqueued : (pollAllQueued setup now).Moves (Posts setup) :=
    Moves.get_bind fun _ => Moves.mapM fun tx _ => pollQueued_posts tx
  refine Yields.bind htake (fun _ s₁ hs₁ => ?_) fun _ s₁ hs₁ => ?_
  swap
  · rw [hs₁]
    exact h₁
  rw [hs₁]
  refine Yields.bind hprogress (fun _ s₂ hs₂ => ?_) fun _ s₂ hs₂ => h₁.posts hs₂
  have h₂ := h₁.posts hs₂
  refine Yields.bind_of_moves hactive (fun _ s₃ hs₃ => ?_) fun _ s₃ hs₃ => h₂.posts hs₃
  have h₃ := h₂.posts hs₃
  refine Yields.bind_of_moves hqueued (fun _ s₄ hs₄ => ?_) fun _ s₄ hs₄ => h₃.posts hs₄
  exact (h₃.posts hs₄).posts (.of_eq rfl rfl)

/-- A `poll` returns only controls that may be sent. -/
theorem pollEmissions_sendsLines {s : APRSAdapter} (h : SendsLines setup s) :
    (pollEmissions setup now).Yields s fun outcome s' => SendsLines setup s' ∧
      ∀ es, outcome = .ok es → ControlsSendable setup es := by
  refine Yields.mono (Yields.and (pollEmissions_posts h) (pollEmissions_controls setup _ s))
    fun outcome s' h' => ⟨h'.1, fun es hes packet hmem => ?_⟩
  rcases h'.2 es hes packet hmem with hwaited | ⟨e, he, -, body, hbody, rfl⟩
  · exact h.immediate packet hwaited
  · exact ⟨rfl, h.progress e.1 (List.mem_map_of_mem he), encodeMissing_printable hbody⟩

/-! ### Runs -/

theorem connectionLost_posts : (connectionLost setup).Moves (Posts setup) := by
  have hclear : ∀ s : APRSAdapter, Posts setup s
      { s with queue := [], pending := .empty, immediate := [] } := fun s =>
    ⟨fun _ hmem => absurd hmem List.not_mem_nil, fun _ h => .inl h⟩
  refine Moves.get_bind fun s => Moves.bind (Moves.modify hclear) fun _ => ?_
  exact Moves.forM fun _ _ => (reportDelivery_keepsOuter _ _ _).posts

theorem step_sendsLines {s : APRSAdapter} (h : SendsLines setup s) (call : Call) :
    SendsLines setup (step setup s call) := by
  have hmoves : ∀ {m : Adapter Response}, m.Moves (Posts setup) → SendsLines setup (m.run s).2 :=
    fun hm => h.posts (hm s)
  cases call with
  | receive peer body now => exact hmoves (Moves.bind receive_posts fun _ => Moves.pure _)
  | poll now =>
    rw [step_poll]
    exact (pollEmissions_sendsLines h : Yields _ _ _).1
  | queueFrame peer frame options =>
    exact hmoves (Moves.bind (queueFrame_keepsOuter _ _).posts fun _ => Moves.pure _)
  | deliverMessage message endpoint =>
    exact hmoves (Moves.bind (deliverMessage_keepsOuter _ _).posts fun _ => Moves.pure _)
  | connectionLost => exact hmoves (Moves.bind connectionLost_posts fun _ => Moves.pure _)
  | core change =>
    exact hmoves (Moves.bind (modify_posts fun _ => ⟨rfl, rfl⟩) fun _ => Moves.pure _)

/-- In every run, whatever waits may be sent. -/
theorem runState_sendsLines (core : CoreState) (calls : List Call) :
    ∀ i ≤ calls.length, SendsLines setup (runState setup core calls i) :=
  stateAt_invariant (I := fun s : APRSAdapter => SendsLines setup s)
    ⟨fun _ h => absurd h List.not_mem_nil, fun _ h => absurd h List.not_mem_nil⟩
    fun _ _ h => step_sendsLines h _

/-- A burst consists of packets of its transaction. -/
theorem Trace.packets_mem {o o' : Outbound} {log : List Burst}
    (h : Trace (Outbound.Move setup) o log o') :
    ∀ b ∈ log, ∀ packet ∈ b.packets, packet ∈ b.tx.packets := by
  refine h.since (I := fun log _ => ∀ b ∈ log, ∀ packet ∈ b.packets, packet ∈ b.tx.packets)
    (fun _ hb => absurd hb List.not_mem_nil) fun log o b o' hlog hmove b' hb' => ?_
  rcases List.mem_append.mp hb' with hb' | hb'
  · exact hlog b' hb'
  cases hmove with
  | retry indices =>
    rw [List.mem_singleton.mp hb']
    intro packet hpacket
    obtain ⟨index, -, hindex⟩ := List.mem_filterMap.mp hpacket
    exact List.mem_of_getElem? hindex
  | start =>
    rw [List.mem_singleton.mp hb']
    exact fun _ hpacket => hpacket
  | _ => exact absurd hb' List.not_mem_nil

/-- Every packet that a `poll` returns may be sent. -/
theorem poll_sendable {s : APRSAdapter} (hsound : s.outbound.Sound setup) (h : SendsLines setup s)
    {packets : List OutboundPacket} (hpoll : ((poll setup now).run s).1 = .ok packets) :
    ∀ packet ∈ packets, packet.Sendable setup := by
  have hrun := congrArg Prod.fst (run_bind_pure (pollEmissions setup now)
    (fun es => es.flatMap Emission.packets) s)
  obtain ⟨es, hes, rfl⟩ := Py.map_eq_ok.mp (hrun.symm.trans hpoll)
  intro packet hpacket
  obtain ⟨emission, hemission, hpacket⟩ := List.mem_flatMap.mp hpacket
  cases emission with
  | control packet' =>
    obtain rfl := List.mem_singleton.mp hpacket
    exact (pollEmissions_sendsLines h : Yields _ _ _).2 es hes packet hemission
  | frame tx packets =>
    obtain ⟨retries, starts, htrace, hretries, hstarts, hok, -⟩ : Yields _ _ _ :=
      pollEmissions_trace setup now hsound.nodup_queue
    have hburst : ⟨now, tx, packets⟩ ∈ retries ++ starts := by
      rw [← hok es hes]
      exact List.mem_filterMap.mpr ⟨.frame tx packets, hemission, rfl⟩
    have hheld : tx.parcel ∈ s.outbound.parcels := by
      rw [Outbound.parcels_eq, List.mem_append]
      rcases List.mem_append.mp hburst with hburst | hburst
      · exact .inr (List.mem_map_of_mem (hretries _ hburst))
      · exact .inl (List.mem_map_of_mem (hstarts _ hburst).1)
    exact (hsound.carries _ hheld).sendable (hsound.addressed _ hheld) packet
      (htrace.packets_mem _ hburst packet hpacket)

/-- **The APRS-IS line codec.** In every run of an adapter whose own callsign is valid, the line of
a packet that `poll` returns reads back as the packet if and only if its destination has at most
nine characters. -/
theorem line_roundTrip_iff (setup : Setup)
    (hservice : validatePeer setup.serviceCallsign = .ok setup.serviceCallsign)
    (core : CoreState) (calls : List Call) (now : ℚ) (packets : List OutboundPacket)
    (hpoll : ((poll setup now).run (runState setup core calls calls.length)).1 = .ok packets) :
    ∀ packet ∈ packets,
      AprsIS.parsePacket (AprsIS.formatPacket packet) =
          some (packet.source, packet.destination, packet.body, none) ↔
        packet.destination.length ≤ 9 := fun packet hpacket =>
  (poll_sendable (runState_sound setup core calls calls.length le_rfl)
    (runState_sendsLines core calls calls.length le_rfl) hpoll packet hpacket).parsePacket_iff
      hservice

section LongAddress

def lineSetup : Setup := .standard true ⟨true, true⟩

def lineCore : CoreState := ⟨.fresh, 1700000000, .empty⟩

/-- A body that is no fragment, whose sender wants to know about it. -/
def unparsable (peer : String) : List Call := [.receive (str peer) (str "x\x7bC1") 0]

/-- The rejection goes to an address that fits. -/
theorem line_roundTrip_iff_short :
    validatePeer lineSetup.serviceCallsign = .ok lineSetup.serviceCallsign ∧
    ((poll lineSetup 0).run (runState lineSetup lineCore (unparsable "EA3AAA-15") 1)).1 =
      .ok [⟨str "OPENQSP", str "EA3AAA-15", str "rejC1", false⟩] ∧
    AprsIS.parsePacket (AprsIS.formatPacket
        ⟨str "OPENQSP", str "EA3AAA-15", str "rejC1", false⟩) =
      some (str "OPENQSP", str "EA3AAA-15", str "rejC1", none) := by
  have hservice : validatePeer lineSetup.serviceCallsign = .ok lineSetup.serviceCallsign := by
    decide +kernel
  have hpoll : ((poll lineSetup 0).run (runState lineSetup lineCore (unparsable "EA3AAA-15") 1)).1 =
      .ok [⟨str "OPENQSP", str "EA3AAA-15", str "rejC1", false⟩] := by decide +kernel
  exact ⟨hservice, hpoll, (line_roundTrip_iff lineSetup hservice lineCore (unparsable "EA3AAA-15") 0
    _ hpoll _ (List.mem_singleton_self _)).mpr (by decide)⟩

/-- The rejection goes to an address of ten characters, which pushes the delimiter out of its
place. -/
theorem longAddress_lost :
    validatePeer lineSetup.serviceCallsign = .ok lineSetup.serviceCallsign ∧
    validatePeer (str "ABCDEFGHIJ") = .ok (str "ABCDEFGHIJ") ∧
    ∃ packets, ((poll lineSetup 0).run
        (runState lineSetup lineCore (unparsable "ABCDEFGHIJ") 1)).1 = .ok packets ∧
      ¬∀ packet ∈ packets, AprsIS.parsePacket (AprsIS.formatPacket packet) =
        some (packet.source, packet.destination, packet.body, none) := by
  refine ⟨by decide +kernel, by decide +kernel,
    [⟨str "OPENQSP", str "ABCDEFGHIJ", str "rejC1", false⟩], by decide +kernel, fun h => ?_⟩
  have hline := h _ (List.mem_singleton_self _)
  exact absurd hline (by decide +kernel)

end LongAddress

end OpenQSP
