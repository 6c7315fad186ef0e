import OpenQSP.Aprs.Answering
import OpenQSP.Aprs.Fitting
import OpenQSP.Lib.TwoRuns

/-!
# Queueing a frame

When `queue_frame` returns and what it leaves then, and what it leaves when it raises. A proactive
frame first takes the place of the response that is being sent; the id, the frame and the room are
checked after that.

## Main definitions

* `APRSAdapter.Accepts` — what `queue_frame` needs
* `SameButIds`, `pollAnswers` — what a failed call may change, and what later polls do

## Main results

* `queueFrame_spec`
* `pollAnswers_eq` — polls do not read the counters of the ids
* **`queueFrame_atomic_iff`**
-/

namespace OpenQSP

open APRSAdapter Method Py

variable {setup : Setup} {peer : Str} {frame : Bytes} {options : QueueOptions} {s : APRSAdapter}

/-! ### What it needs -/

/-- The number of fragments of a frame. -/
def fragmentCount (frame : Bytes) : ℕ := (frame.length + 49) / 50

/-- The frame can be decoded, an id is free, and its fragments fit into the queue. -/
structure APRSAdapter.Accepts (setup : Setup) (peer : Str) (frame : Bytes) (s : APRSAdapter) :
    Prop where
  decodes : ∃ decoded, decodeFrameWithFlags frame = .ok decoded
  id_free : ∃ value < 256, base36Digits 3 value ∉ s.activeTransactions peer
  fits : s.queuedCount + s.pendingCount + fragmentCount frame ≤ setup.config.queueCapacity

theorem allocateFrom_eq_some {active : List Str} {tries next : ℕ} {candidate : Str}
    (h : (allocateFrom active tries next).1 = some candidate) :
    ∃ value < 256, candidate = base36Digits 3 value := by
  induction tries generalizing next with
  | zero => cases h
  | succ tries ih =>
    rw [allocateFrom] at h
    split at h
    · exact ⟨next % 256, Nat.mod_lt _ (by decide), (Option.some.inj h).symm⟩
    · exact ih h

theorem decodes_of_fragmentFrameV2 {transactionId : Str} {fragments : List APRSFragment}
    (h : fragmentFrameV2 frame transactionId = .ok fragments) :
    ∃ decoded, decodeFrameWithFlags frame = .ok decoded := by
  obtain ⟨_, -, h⟩ := bind_eq_ok.mp h
  obtain ⟨_, hcheck, -⟩ := bind_eq_ok.mp h
  obtain ⟨_, -, hcheck⟩ := bind_eq_ok.mp hcheck
  obtain ⟨decoded, hdecoded, -⟩ := bind_eq_ok.mp hcheck
  exact ⟨decoded, hdecoded⟩

theorem length_of_fragmentFrameV2 {transactionId : Str} {fragments : List APRSFragment}
    (h : fragmentFrameV2 frame transactionId = .ok fragments) : fragments.length =
      fragmentCount frame := by
  rw [fragmentFrameV2_eq h, List.length_map, List.length_zipIdx, length_chunks, v2DataChunkSize]
  rfl

/-- An id is found exactly if one is free; only the counter changes. -/
theorem allocate_found (s : APRSAdapter) : (allocate peer).Yields s fun outcome s' =>
    (∃ next, s' = { s with nextTransaction := next }) ∧
    (∀ transactionId, outcome = .ok transactionId → Profile.q2.ValidTransaction transactionId ∧
      ∃ value < 256, base36Digits 3 value ∉ s.activeTransactions peer) ∧
    ∀ e, outcome = .error e → ∀ value < 256, base36Digits 3 value ∈ s.activeTransactions peer := by
  obtain ⟨found, hfound⟩ : ∃ found, allocateFrom (s.activeTransactions peer) 256
    ((s.nextTransaction.get? peer).getD 0) = found := ⟨_, rfl⟩
  have hcandidate := congrArg Prod.fst hfound
  rw [Yields, allocate_run hfound]
  rcases found with ⟨_ | candidate, next⟩
  · refine ⟨⟨_, rfl⟩, fun _ h => ?_, fun _ _ => allocateFrom_exhausted hcandidate⟩
    cases h
  · refine ⟨⟨_, rfl⟩, fun transactionId h => ?_, fun _ h => ?_⟩
    swap
    · cases h
    obtain rfl := Except.ok.inj h
    obtain ⟨value, hvalue, hdigits⟩ := allocateFrom_eq_some hcandidate
    exact ⟨allocateFrom_valid hcandidate, value, hvalue, hdigits ▸ allocateFrom_notMem hcandidate⟩

/-- `queue_frame` returns exactly if the frame is accepted once room was made for it. Then it
appends one transaction; otherwise it has at most used up ids. -/
theorem queueFrame_spec {peer' : Str} (hpeer : validatePeer peer = .ok peer') (s : APRSAdapter) :
    (queueFrame setup peer frame options).Yields s fun outcome s' =>
      (∀ transactionId, outcome = .ok transactionId →
        (makeRoom peer options s).Accepts setup peer frame ∧
        ∃ tx next, tx.Queues peer frame options (makeRoom peer options s).burstOrder ∧
          s' = { makeRoom peer options s with
            nextTransaction := next
            burstQueue := (makeRoom peer options s).burstQueue ++ [tx]
            burstOrder := (makeRoom peer options s).burstOrder + 1 }) ∧
      ∀ e, outcome = .error e → ¬(makeRoom peer options s).Accepts setup peer frame ∧
        ∃ next, s' = { makeRoom peer options s with nextTransaction := next } := by
  rw [queueFrame, hpeer]
  refine yields_makeRoom ?_
  generalize makeRoom peer options s = t
  refine Yields.bind (allocate_found t) (fun transactionId t₁ ht₁ => ?_) fun e t₁ ht₁ => ?_
  · obtain ⟨⟨next, rfl⟩, hvalid, -⟩ := ht₁
    obtain ⟨hvalid, hfree⟩ := hvalid transactionId rfl
    refine Yields.ofExcept_bind (fun fragments hfragments => ?_) fun e he =>
      ⟨(fun _ h => by cases h), fun _ _ => ⟨?_, next, rfl⟩⟩
    · have hdecodes := decodes_of_fragmentFrameV2 hfragments
      obtain ⟨fragments', hfragments', hcut⟩ := fragmentFrameV2_ok hdecodes.choose_spec hvalid
      obtain rfl := Except.ok.inj (hfragments.symm.trans hfragments')
      obtain ⟨packets, hpackets⟩ := exists_packetsOf setup peer
        fun fragment hmem => (hcut.body fragment hmem).imp fun _ h => h.1
      refine Yields.get_bind (Yields.ofExcept_bind (fun _ hroom => ?_) fun e he =>
        ⟨(fun _ h => by cases h), fun _ _ => ⟨?_, next, rfl⟩⟩)
      · rw [raiseIf_eq_ok, not_lt, length_of_fragmentFrameV2 hfragments] at hroom
        rw [hpackets]
        refine ⟨fun transactionId' h => ?_, fun _ h => by cases h⟩
        obtain rfl := Except.ok.inj h
        exact ⟨⟨hdecodes, hfree, hroom⟩, _, next, ⟨rfl, rfl, hfragments, rfl, rfl, rfl, rfl,
          rfl⟩, rfl⟩
      · rintro ⟨-, -, hfits⟩
        rw [← length_of_fragmentFrameV2 hfragments] at hfits
        cases he.symm.trans (raiseIf_of_not (not_lt.mpr hfits) _)
    · rintro ⟨⟨decoded, hdecoded⟩, -, -⟩
      obtain ⟨fragments, hfragments, -⟩ := fragmentFrameV2_ok hdecoded hvalid
      cases he.symm.trans hfragments
  · obtain ⟨⟨next, rfl⟩, -, hused⟩ := ht₁
    refine ⟨(fun _ h => by cases h), fun _ _ => ⟨?_, next, rfl⟩⟩
    rintro ⟨-, ⟨value, hvalue, hfree⟩, -⟩
    exact hfree (hused e rfl value hvalue)

/-! ### Later polls -/

/-- The states differ in the counters of the ids at most. -/
def SameButIds (s s' : APRSAdapter) : Prop := ∃ next, s' = { s with nextTransaction := next }

theorem SameButIds.active {s s' : APRSAdapter} (h : SameButIds s s') : s'.burstActive =
    s.burstActive := by
  obtain ⟨next, rfl⟩ := h
  rfl

/-- What a sequence of polls returns or raises. -/
def pollAnswers (setup : Setup) : APRSAdapter → List ℚ → List (Py (List OutboundPacket))
  | _, [] => []
  | s, now :: times => ((poll setup now).run s).1 :: pollAnswers setup
      ((poll setup now).run s).2 times

/-- The method does not read the counters, and changes them at most by itself. -/
abbrev IgnoresIds {α : Type} (m : Adapter α) : Prop := Agrees SameButIds m m

section Polls

variable {now : ℚ}

/-- A change that does not look at the counters. -/
theorem modify_ignoresIds {g : APRSAdapter → APRSAdapter}
    (h : ∀ s next, g { s with nextTransaction := next } = { g s with nextTransaction := next }) :
    IgnoresIds (modify g) := Agrees.modify fun s s' ⟨next, hs'⟩ => ⟨next, by rw [hs', h]⟩

theorem get_bind_ignoresIds {α : Type} {f : APRSAdapter → Adapter α}
    (h : ∀ s, IgnoresIds (f s)) (hf : ∀ s next, f { s with nextTransaction := next } = f s) :
    IgnoresIds (get >>= f) := by
  refine Agrees.get_bind fun s s' ⟨next, hs'⟩ => ?_
  rw [hs', hf s next]
  exact h s

theorem reportDelivery_ignoresIds (order : Option ℕ) (delivered : Bool)
    (delivery : Option Delivery) :
    IgnoresIds (reportDelivery setup order delivered delivery) := by
  cases delivery with
  | none => exact Agrees.pure _
  | some delivery =>
    rintro s s' ⟨next, rfl⟩
    exact ⟨rfl, next, rfl⟩

theorem failOutbound_ignoresIds (tx : BurstTx) : IgnoresIds (failOutbound setup peer tx) := by
  refine Agrees.bind (modify_ignoresIds fun _ _ => rfl) fun _ => ?_
  exact Agrees.bind (reportDelivery_ignoresIds _ _ _) fun _ => modify_ignoresIds fun _ _ => rfl

theorem pollProgress_ignoresIds (e : TransactionKey × RxProgress) :
    IgnoresIds (pollProgress setup now e) := by
  refine Agrees.ite (Agrees.pure _) (Agrees.ite ?_ ?_)
  · exact Agrees.bind (modify_ignoresIds fun _ _ => rfl) fun _ => Agrees.pure _
  · refine Agrees.bind (Agrees.ofExcept _) fun _ => ?_
    exact Agrees.bind (modify_ignoresIds fun _ _ => rfl) fun _ => Agrees.pure _

theorem pollActive_ignoresIds (e : Str × BurstTx) : IgnoresIds (pollActive setup now e) := by
  rw [pollActive]
  split
  · exact Agrees.pure _
  · exact Agrees.bind (failOutbound_ignoresIds _) fun _ => Agrees.pure _
  · refine Agrees.ite (Agrees.bind (failOutbound_ignoresIds _) fun _ => Agrees.pure _) ?_
    refine get_bind_ignoresIds (fun s => Agrees.ite ?_ ?_) fun _ _ => rfl
    · exact Agrees.bind (modify_ignoresIds fun _ _ => rfl) fun _ => Agrees.pure _
    · exact Agrees.bind (modify_ignoresIds fun _ _ => rfl) fun _ => Agrees.pure _

theorem pollQueued_ignoresIds (tx : BurstTx) : IgnoresIds (pollQueued setup now tx) := by
  refine get_bind_ignoresIds (fun s => Agrees.ite (Agrees.pure _) (Agrees.ite (Agrees.pure _) ?_))
    fun _ _ => rfl
  exact Agrees.bind (modify_ignoresIds fun _ _ => rfl) fun _ => Agrees.pure _

theorem poll_ignoresIds : IgnoresIds (poll setup now) := by
  have htake : IgnoresIds takeImmediate := get_bind_ignoresIds
    (fun _ => Agrees.bind (modify_ignoresIds fun _ _ => rfl) fun _ => Agrees.pure _) fun _ _ => rfl
  refine Agrees.bind (Agrees.bind htake fun _ => ?_) fun _ => Agrees.pure _
  refine Agrees.bind (get_bind_ignoresIds (fun _ => Agrees.mapM pollProgress_ignoresIds _)
    fun _ _ => rfl) fun _ => ?_
  refine Agrees.bind (get_bind_ignoresIds (fun _ => Agrees.mapM pollActive_ignoresIds _) fun _ _ =>
    rfl) fun _ => ?_
  refine Agrees.bind (get_bind_ignoresIds (fun _ => Agrees.mapM pollQueued_ignoresIds _) fun _ _ =>
    rfl) fun _ => ?_
  exact Agrees.bind (modify_ignoresIds fun _ _ => rfl) fun _ => Agrees.pure _

/-- What polls answer does not depend on the counters. -/
theorem pollAnswers_eq {s s' : APRSAdapter} (h : SameButIds s s') (times : List ℚ) :
    pollAnswers setup s' times = pollAnswers setup s times := by
  induction times generalizing s s' with
  | nil => rfl
  | cons now times ih =>
    obtain ⟨houtcome, hstate⟩ := (poll_ignoresIds : IgnoresIds (poll setup now)) s s' h
    rw [pollAnswers, pollAnswers, houtcome, ih hstate]

end Polls

/-! ### Failure -/

/-- If `queue_frame` raises, then it has used up ids at most, and later polls transmit what they
would have transmitted without it. -/
def QueuesAtomically (setup : Setup) (peer : Str) (frame : Bytes) (options : QueueOptions)
    (s : APRSAdapter) : Prop :=
  ∀ e, ((queueFrame setup peer frame options).run s).1 = .error e →
    SameButIds s ((queueFrame setup peer frame options).run s).2 ∧
    ∀ times, pollAnswers setup ((queueFrame setup peer frame options).run s).2 times =
      pollAnswers setup s times

/-- The transaction that is being sent to the peer gives way to a proactive frame. -/
def APRSAdapter.GivesWay (peer : Str) (s : APRSAdapter) : Prop :=
  ∃ active ∈ s.burstActive.get? peer, active.responseBatch ≠ none ∧
    active.responseSupersedable = true

theorem makeRoom_eq_self (h : options.proactive = true → ¬s.GivesWay peer) :
    makeRoom peer options s = s := by
  rw [makeRoom]
  split
  · next hproactive =>
    rw [OpenQSP.supersedeForProactive]
    split
    · rfl
    · next active hactive =>
      refine if_pos (or_iff_not_imp_left.mpr fun hbatch =>
        Bool.eq_false_iff.mpr fun hsupersedable => ?_)
      exact h hproactive ⟨active, hactive, hbatch, hsupersedable⟩
  · rfl

/-- What gave way is gone. -/
theorem supersedeForProactive_active (h : s.GivesWay peer) :
    s.burstActive.get? peer ≠ none ∧ (supersedeForProactive peer s).burstActive.get? peer =
      none := by
  obtain ⟨active, hactive, hbatch, hsupersedable⟩ := h
  have hactive : s.burstActive.get? peer = some active := hactive
  refine ⟨fun hnone => (nomatch hactive.symm.trans hnone), ?_⟩
  rw [OpenQSP.supersedeForProactive]
  simp only [hactive]
  rw [if_neg (by rw [hsupersedable]; simpa using hbatch)]
  exact OrderedDict.get?_erase_self _ _

/-- In every state, a call of `queue_frame` is atomic exactly if it does not drop a response for a
proactive frame that is then not accepted. -/
theorem queueFrame_atomic_iff (setup : Setup) (peer : Str) (frame : Bytes) (options : QueueOptions)
    (s : APRSAdapter) :
    QueuesAtomically setup peer frame options s ↔
      (options.proactive = true → (∃ valid, validatePeer peer = .ok valid) → s.GivesWay peer →
        (supersedeForProactive peer s).Accepts setup peer frame) := by
  constructor
  · rintro h hproactive ⟨valid, hvalid⟩ hgives
    obtain ⟨hok, herror⟩ : (queueFrame setup peer frame options).Yields s _ :=
      queueFrame_spec hvalid s
    rw [makeRoom, if_pos hproactive] at hok herror
    cases houtcome : ((queueFrame setup peer frame options).run s).1 with
    | ok transactionId => exact (hok transactionId houtcome).1
    | error e =>
      obtain ⟨-, next, hdropped⟩ := herror e houtcome
      obtain ⟨⟨next', hsame⟩, -⟩ := h e houtcome
      obtain ⟨hsome, hnone⟩ := supersedeForProactive_active hgives
      have hactive := congrArg APRSAdapter.burstActive (hdropped.symm.trans hsame)
      exact absurd ((congrArg (OrderedDict.get? · peer) hactive).symm.trans hnone) hsome
  · intro h e he
    have hsame : SameButIds s ((queueFrame setup peer frame options).run s).2 := by
      cases hvalid : validatePeer peer with
      | error e =>
        rw [queueFrame, hvalid]
        exact ⟨_, rfl⟩
      | ok valid =>
        obtain ⟨-, herror⟩ : (queueFrame setup peer frame options).Yields s _ :=
          queueFrame_spec hvalid s
        obtain ⟨hrefused, hleft⟩ := herror e he
        rwa [makeRoom_eq_self] at hleft
        intro hproactive hgives
        rw [makeRoom, if_pos hproactive] at hrefused
        exact hrefused (h hproactive ⟨valid, hvalid⟩ hgives)
    exact ⟨hsame, pollAnswers_eq hsame⟩

section Dropped

/-- A station that has begun to send its capabilities to a client. -/
def sendingCapabilities : APRSAdapter :=
  runState (.standard true ⟨true, true⟩) ⟨.fresh, 1700000000, .empty⟩
    [.receive (str "EA1ABC") (str "Q1:000:00/01:AQUAAA") 0, .poll 1] 2

/-- A proactive frame that is no frame at all drops them. -/
theorem queueFrame_notAtomic :
    ¬QueuesAtomically { router := true, stores := ⟨true, true⟩ } (str "EA1ABC") []
      { proactive := true }
      sendingCapabilities := by
  have hraises : ((queueFrame { router := true, stores := ⟨true, true⟩ } (str "EA1ABC") []
      { proactive := true }).run sendingCapabilities).1 =
        .error (.carriage "frame size is outside the OpenQSP bounds") := by decide +kernel
  intro h
  exact absurd (congrArg OrderedDict.size (h _ hraises).1.active) (by decide +kernel)

end Dropped

end OpenQSP
