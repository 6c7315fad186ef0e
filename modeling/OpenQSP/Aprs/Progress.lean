import OpenQSP.Aprs.Answering
import OpenQSP.Aprs.Dispositions

/-!
# When `poll` returns

`poll` goes through the inbound transactions of which fragments are missing, and then through the
active outbound ones. It raises in two places only. The control that asks for missing fragments
names its transaction in one byte, but a fragment of the first profile may name it by any three
digits in base 36. And a transaction that is given up has its delivery marked, which Core refuses
where it does not know the message.

## Main definitions

* `Asks` — what `poll` does to the table of the inbound transactions
* `BurstTx.GivenUp` — `poll` gives up the transaction
* `Pollable` — nothing of this happens

## Main results

* `testBit_maskOf`, `encodeMissing_returns_iff`
* `pollAllProgress_returns_iff`, `pollAllActive_returns_iff`
* `runState_bounded` — an inbound transaction has at most sixteen fragments
* **`poll_returns_iff`**
-/

namespace OpenQSP

open APRSAdapter Method Py

variable {setup : Setup} {s s' : APRSAdapter} {now : ℚ}

/-! ### The control that asks for fragments -/

/-- The bits of a mask are the indexes it was built from. -/
theorem testBit_maskOf (indices : List ℕ) (mask i : ℕ) :
    (indices.foldl (fun mask index => mask ||| 1 <<< index) mask).testBit i =
      (mask.testBit i || decide (i ∈ indices)) := by
  induction indices generalizing mask with
  | nil => simp
  | cons index indices ih =>
    rw [List.foldl_cons, ih, Nat.testBit_or, Nat.one_shiftLeft, Nat.testBit_two_pow, Bool.or_assoc]
    congr 1
    simp only [List.mem_cons, Bool.decide_or, eq_comm]

theorem mask_ne_zero {missing : Finset ℕ} (h : missing ≠ ∅) :
    (sorted missing).foldl (fun mask index => mask ||| 1 <<< index) 0 ≠ 0 := by
  obtain ⟨i, hi⟩ := Finset.nonempty_iff_ne_empty.mpr h
  intro hzero
  have hbit := testBit_maskOf (sorted missing) 0 i
  rw [hzero, Nat.zero_testBit, Bool.false_or] at hbit
  exact absurd (mem_sorted.mpr hi) (of_decide_eq_false hbit.symm)

/-- Missing fragments can be asked for exactly if one byte names their transaction. -/
theorem encodeMissing_returns_iff {transactionId : Str} {missing : Finset ℕ} (hne : missing ≠ ∅)
    (hlt : ∀ index ∈ missing, index < 16) :
    (∃ body, encodeMissing transactionId missing = .ok body) ↔
      ∃ byte, transactionByte transactionId = .ok byte := by
  have hindex : ¬∃ index ∈ missing, ¬index < 16 := by
    rintro ⟨index, hmem, hge⟩
    exact hge (hlt index hmem)
  rw [encodeMissing, raiseIf_of_not hindex, ok_bind]
  dsimp only
  rw [raiseIf_of_not (mask_ne_zero hne), ok_bind, encodeControl]
  rcases transactionByte transactionId with e | byte
  · constructor
    · rintro ⟨body, h⟩
      cases h
    · rintro ⟨byte, h⟩
      cases h
  · exact iff_of_true ⟨_, rfl⟩ ⟨byte, rfl⟩

/-! ### The inbound transactions -/

/-- What has been seen of an inbound transaction. -/
def RxProgress.seen (progress : RxProgress) : ℕ × Finset ℕ := (progress.total, progress.received)

theorem RxProgress.missing_eq (progress : RxProgress) :
    progress.missing = Finset.range progress.seen.1 \ progress.seen.2 := rfl

theorem RxProgress.missing_lt {progress : RxProgress} (h : progress.total ≤ 16) :
    ∀ index ∈ progress.missing, index < 16 := by
  intro index hindex
  have hlt := Finset.mem_range.mp (Finset.mem_sdiff.mp hindex).1
  omega

/-- What has been seen stays, but a transaction of which nothing is missing may be forgotten. -/
def Asks (s s' : APRSAdapter) : Prop :=
  ∀ key, (s'.rxProgress.get? key).map RxProgress.seen = (s.rxProgress.get? key).map
      RxProgress.seen ∨
    s'.rxProgress.get? key = none ∧ ∃ progress, s.rxProgress.get? key = some progress ∧
      progress.missing = ∅

theorem missing_of_seen_eq {progress progress' : RxProgress} (h : progress'.seen = progress.seen) :
    progress'.missing = progress.missing := by
  rw [RxProgress.missing_eq, RxProgress.missing_eq, h]

instance : IsPreorder APRSAdapter Asks where
  refl _ _ := .inl rfl
  trans s s' s'' h h' := by
    intro key
    rcases h' key with heq' | ⟨hnone, progress', hget', hmissing'⟩
    · rcases h key with heq | ⟨hnone, hold⟩
      · exact .inl (heq'.trans heq)
      · rw [hnone, Option.map_none, Option.map_eq_none_iff] at heq'
        exact .inr ⟨heq', hold⟩
    · refine .inr ⟨hnone, ?_⟩
      rcases h key with heq | ⟨hnone', -⟩
      · rw [hget', Option.map_some] at heq
        obtain ⟨progress, hget, hseen⟩ := Option.map_eq_some_iff.mp heq.symm
        exact ⟨progress, hget, (missing_of_seen_eq hseen).trans hmissing'⟩
      · rw [hnone'] at hget'
        cases hget'

theorem Asks.of_eq (h : s'.rxProgress = s.rxProgress) : Asks s s' := fun key => .inl (by rw [h])

/-- Every inbound transaction has at most as many fragments as a map of sixteen bits names. -/
def Inbound.Bounded (i : Inbound) : Prop := ∀ e ∈ i.rxProgress.entries, e.2.total ≤ 16

theorem Asks.bounded (h : Asks s s') (hbounded : s.inbound.Bounded) : s'.inbound.Bounded := by
  intro e he
  have hget : s'.rxProgress.get? e.1 = some e.2 := OrderedDict.get?_eq_some_iff.mpr he
  rcases h e.1 with heq | ⟨hnone, -⟩
  · rw [hget, Option.map_some] at heq
    obtain ⟨progress, hold, hseen⟩ := Option.map_eq_some_iff.mp heq.symm
    have htotal : progress.total = e.2.total := congrArg Prod.fst hseen
    rw [← htotal]
    exact hbounded (e.1, progress) (OrderedDict.get?_eq_some_iff.mp hold)
  · rw [hnone] at hget
    cases hget

/-- One transaction: what `poll` does to it, and when it raises. -/
theorem pollProgress_spec {e : TransactionKey × RxProgress}
    (hget : s.rxProgress.get? e.1 = some e.2) (htotal : e.2.total ≤ 16) :
    (pollProgress setup now e).Yields s fun outcome s' =>
      ((∃ emissions, outcome = .ok emissions) ↔
        (e.2.deadline ≤ now → e.2.missing ≠ ∅ → ∃ byte, transactionByte e.1.2 = .ok byte)) ∧
      Asks s s' ∧ s'.core = s.core ∧
      ∀ key ≠ e.1, s'.rxProgress.get? key = s.rxProgress.get? key := by
  rw [pollProgress]
  split
  · next hearly =>
    exact ⟨iff_of_true ⟨_, rfl⟩ fun hdue => absurd hdue (not_le.mpr hearly), refl_of Asks s, rfl,
      fun _ _ => rfl⟩
  next hdue =>
  rw [not_lt] at hdue
  split
  · next hempty =>
    refine ⟨iff_of_true ⟨_, rfl⟩ fun _ hne => absurd hempty hne, fun key => ?_, rfl,
      fun key hne => OrderedDict.get?_erase_of_ne hne⟩
    by_cases hkey : key = e.1
    · rw [hkey]
      exact .inr ⟨OrderedDict.get?_erase_self _ _, e.2, hget, hempty⟩
    · refine .inl (congrArg _ ?_)
      exact OrderedDict.get?_erase_of_ne hkey
  · next hne =>
    have hencode : (∃ body, encodeMissing e.1.2 e.2.missing = .ok body) ↔ _ :=
      encodeMissing_returns_iff hne (RxProgress.missing_lt htotal)
    refine Yields.ofExcept_bind (fun body hbody => ?_) fun x hx => ?_
    · refine ⟨iff_of_true ⟨_, rfl⟩ fun _ _ => hencode.mp ⟨body, hbody⟩, fun key => .inl ?_, rfl,
        fun key hkey => OrderedDict.get?_set_of_ne hkey⟩
      show Option.map RxProgress.seen ((s.rxProgress.set e.1 _).get? key) = _
      rw [OrderedDict.get?_set]
      split
      · next hkey =>
        rw [hkey, hget]
        rfl
      · rfl
    · refine ⟨iff_of_false ?_ fun h => ?_, refl_of Asks s, rfl, fun _ _ => rfl⟩
      · rintro ⟨_, h⟩
        cases h
      · obtain ⟨body, hbody⟩ := hencode.mpr (h hdue hne)
        cases hx.symm.trans hbody

/-- The loop over the inbound transactions. -/
theorem pollAllProgress_returns_iff (hbounded : s.inbound.Bounded) :
    (pollAllProgress setup now).Yields s fun outcome s' =>
      ((∃ emissions, outcome = .ok emissions) ↔ ∀ e ∈ s.rxProgress.entries, e.2.deadline ≤ now →
        e.2.missing ≠ ∅ → ∃ byte, transactionByte e.1.2 = .ok byte) ∧
      ∀ emissions, outcome = .ok emissions → s'.core = s.core := by
  -- the entries that are left are still in the table
  refine Yields.get_bind (Yields.mono (Yields.mapM_returns_iff
    (C := fun e : TransactionKey × RxProgress => e.2.deadline ≤ now → e.2.missing ≠ ∅ →
      ∃ byte, transactionByte e.1.2 = .ok byte)
    (I := fun (l : List (TransactionKey × RxProgress)) (s₁ : APRSAdapter) => s₁.core = s.core ∧
      (∀ e ∈ l, e.2.total ≤ 16 ∧ s₁.rxProgress.get? e.1 = some e.2) ∧ (l.map Prod.fst).Nodup)
    (fun e l s₁ hI => ?_) _ _ ?_) fun _ _ h => ⟨h.1, fun as has => (h.2 as has).1⟩)
  · obtain ⟨hcore, hleft, hnodup⟩ := hI
    obtain ⟨htotal, hget⟩ := hleft e List.mem_cons_self
    refine Yields.mono (pollProgress_spec hget htotal) fun outcome s₂ hs₂ => ?_
    obtain ⟨hreturns, -, hcore₂, hothers⟩ := hs₂
    refine ⟨hreturns, fun _ _ => ⟨hcore₂.trans hcore, fun e' he' => ?_,
      (List.nodup_cons.mp hnodup).2⟩⟩
    have hne : e'.1 ≠ e.1 := fun heq => (List.nodup_cons.mp hnodup).1
      (heq ▸ List.mem_map_of_mem he')
    obtain ⟨htotal', hget'⟩ := hleft e' (List.mem_cons_of_mem _ he')
    exact ⟨htotal', (hothers e'.1 hne).trans hget'⟩
  · exact ⟨rfl, fun e he => ⟨hbounded e he, OrderedDict.get?_eq_some_iff.mpr he⟩,
      s.rxProgress.nodup_keys⟩

theorem pollAllProgress_asks (hbounded : s.inbound.Bounded) :
    (pollAllProgress setup now).Yields s fun _ s' => Asks s s' := by
  refine Yields.get_bind (Yields.mono (Yields.mapM
    (I := fun _ (l : List (TransactionKey × RxProgress)) (s₁ : APRSAdapter) => Asks s s₁ ∧
      (∀ e ∈ l, e.2.total ≤ 16 ∧ s₁.rxProgress.get? e.1 = some e.2) ∧ (l.map Prod.fst).Nodup)
    (E := fun _ s₁ => Asks s s₁) (fun as e l s₁ hI => ?_) _ [] s ?_) fun outcome s' h => ?_)
  · obtain ⟨hasks, hleft, hnodup⟩ := hI
    obtain ⟨htotal, hget⟩ := hleft e List.mem_cons_self
    refine Yields.mono (pollProgress_spec hget htotal) fun outcome s₂ hs₂ => ?_
    obtain ⟨-, hasks₂, -, hothers⟩ := hs₂
    have hasks' : Asks s s₂ := trans_of Asks hasks hasks₂
    refine ⟨fun _ _ => ⟨hasks', fun e' he' => ?_, (List.nodup_cons.mp hnodup).2⟩, fun _ _ => hasks'⟩
    have hne : e'.1 ≠ e.1 := fun heq => (List.nodup_cons.mp hnodup).1
      (heq ▸ List.mem_map_of_mem he')
    obtain ⟨htotal', hget'⟩ := hleft e' (List.mem_cons_of_mem _ he')
    exact ⟨htotal', (hothers e'.1 hne).trans hget'⟩
  · exact ⟨refl_of Asks s, fun e he => ⟨hbounded e he, OrderedDict.get?_eq_some_iff.mpr he⟩,
      s.rxProgress.nodup_keys⟩
  · cases outcome with
    | ok as => exact (h.1 as rfl).1
    | error e => exact h.2 e rfl

/-! ### The active transactions -/

/-- `poll` gives up the transaction. -/
def BurstTx.GivenUp (setup : Setup) (now : ℚ) (tx : BurstTx) : Prop :=
  match tx.due now with
  | .nothing => False
  | .exhausted => True
  | .send _ => setup.config.maxAttempts ≤ tx.attempts

theorem reportFailed_returns_iff (order : Option ℕ) (delivery : Option Delivery)
    (s : APRSAdapter) :
    (∃ u, ((reportDelivery setup order false delivery).run s).1 = .ok u) ↔
      ∀ d, delivery = some d → s.core.CanMark setup.stores d := by
  cases delivery with
  | none =>
    refine iff_of_true ⟨(), rfl⟩ fun d hd => ?_
    cases hd
  | some d =>
    show (∃ u, ((CoreState.markAprsFailed setup.stores d).run s.core).1 = .ok u) ↔ _
    by_cases hmark : s.core.CanMark setup.stores d
    · have hrun := (CoreState.markAprsFailed_run d s.core).1 hmark
      refine iff_of_true ⟨(), congrArg Prod.fst hrun⟩ fun d' hd' => ?_
      exact Option.some.inj hd' ▸ hmark
    · obtain ⟨e, he⟩ := (CoreState.markAprsFailed_run d s.core).2 hmark
      refine iff_of_false ?_ fun h => hmark (h d rfl)
      rintro ⟨u, hu⟩
      rw [he] at hu
      cases hu

theorem failOutbound_returns_iff (peer : Str) (tx : BurstTx) (s : APRSAdapter) :
    (failOutbound setup peer tx).Yields s fun outcome s' =>
      ((∃ u, outcome = .ok u) ↔ ∀ d, tx.delivery = some d → s.core.CanMark setup.stores d) ∧
      s'.core.messages = s.core.messages := by
  have hkeeps : (reportDelivery setup (some tx.order) false tx.delivery).Moves
      (Keeps fun s => s.core.messages) := by
    cases tx.delivery with
    | none => exact Moves.pure _
    | some d => exact fun s => CoreState.markAprsFailed_messages d s.core
  refine Yields.modify_bind (Yields.bind (Q := fun (outcome : Py Unit) (s' : APRSAdapter) =>
    ((∃ u, outcome = .ok u) ↔ ∀ d, tx.delivery = some d → s.core.CanMark setup.stores d) ∧
      s'.core.messages = s.core.messages)
    ⟨reportFailed_returns_iff _ tx.delivery (s.endActive peer tx false), hkeeps _⟩
    (fun u s' hs' => ?_) fun e s' hs' => ?_)
  · exact ⟨iff_of_true ⟨_, rfl⟩ (hs'.1.mp ⟨u, rfl⟩), hs'.2⟩
  · refine ⟨iff_of_false ?_ fun h => ?_, hs'.2⟩
    · rintro ⟨_, h⟩
      cases h
    · obtain ⟨u, hu⟩ := hs'.1.mpr h
      cases hu

/-- One active transaction: `poll` raises if it gives it up and Core does not know its message. -/
theorem pollActive_returns_iff {e : Str × BurstTx} (s : APRSAdapter) :
    (pollActive setup now e).Yields s fun outcome s' =>
      ((∃ emissions, outcome = .ok emissions) ↔
        (e.2.GivenUp setup now → ∀ d, e.2.delivery = some d → s.core.CanMark setup.stores d)) ∧
      s'.core.messages = s.core.messages := by
  have hfail : (do failOutbound setup e.1 e.2; return [] : Adapter (List Emission)).Yields s
      fun outcome s' =>
        ((∃ emissions, outcome = .ok emissions) ↔
          ∀ d, e.2.delivery = some d → s.core.CanMark setup.stores d) ∧
        s'.core.messages = s.core.messages := by
    refine Yields.bind (failOutbound_returns_iff e.1 e.2 s) (fun u s' hs' => ?_) fun x s' hs' => ?_
    · exact ⟨iff_of_true ⟨_, rfl⟩ (hs'.1.mp ⟨u, rfl⟩), hs'.2⟩
    · refine ⟨iff_of_false ?_ fun h => ?_, hs'.2⟩
      · rintro ⟨_, h⟩
        cases h
      · obtain ⟨u, hu⟩ := hs'.1.mpr h
        cases hu
  rw [pollActive, BurstTx.GivenUp]
  cases e.2.due now with
  | nothing => exact ⟨iff_of_true ⟨_, rfl⟩ False.elim, rfl⟩
  | exhausted =>
    refine Yields.mono hfail fun _ _ h => ⟨h.1.trans ?_, h.2⟩
    rw [true_imp_iff]
  | send indices =>
    dsimp only
    split
    · next hmax =>
      refine Yields.mono hfail fun _ _ h => ⟨h.1.trans ?_, h.2⟩
      rw [forall_prop_of_true hmax]
    next hmax =>
    refine Yields.get_bind ?_
    split
    · exact ⟨iff_of_true ⟨_, rfl⟩ fun h => absurd h hmax, rfl⟩
    · exact ⟨iff_of_true ⟨_, rfl⟩ fun h => absurd h hmax, rfl⟩

/-- The loop over the active transactions. -/
theorem pollAllActive_returns_iff (s : APRSAdapter) :
    (pollAllActive setup now).Yields s fun outcome _ =>
      (∃ emissions, outcome = .ok emissions) ↔ ∀ e ∈ s.burstActive.entries,
        e.2.GivenUp setup now → ∀ d, e.2.delivery = some d → s.core.CanMark setup.stores d := by
  refine Yields.get_bind (Yields.mono (Yields.mapM_returns_iff
    (C := fun e : Str × BurstTx => e.2.GivenUp setup now → ∀ d, e.2.delivery = some d →
      s.core.CanMark setup.stores d)
    (I := fun _ (s₁ : APRSAdapter) => s₁.core.messages = s.core.messages)
      (fun e l s₁ hI => ?_) _ _ rfl)
    fun _ _ h => h.1)
  refine Yields.mono (pollActive_returns_iff s₁) fun outcome s₂ hs₂ => ⟨hs₂.1.trans ?_, fun _ _ =>
    hs₂.2.trans hI⟩
  constructor
  · exact fun h hgiven d hd => (h hgiven d hd).of_messages hI.symm
  · exact fun h hgiven d hd => (h hgiven d hd).of_messages hI

/-! ### The whole `poll` -/

/-- `poll` at `now` can name what it asks for, and Core knows the messages of what it gives up. -/
structure Pollable (setup : Setup) (now : ℚ) (s : APRSAdapter) : Prop where
  asks : ∀ e ∈ s.rxProgress.entries, e.2.deadline ≤ now → e.2.missing ≠ ∅ →
    ∃ byte, transactionByte e.1.2 = .ok byte
  givesUp : ∀ e ∈ s.burstActive.entries, e.2.GivenUp setup now →
    ∀ d, e.2.delivery = some d → s.core.CanMark setup.stores d

theorem pollEmissions_returns_iff (hsound : s.outbound.Sound setup) (hbounded : s.inbound.Bounded) :
    (pollEmissions setup now).Yields s fun outcome _ =>
      (∃ emissions, outcome = .ok emissions) ↔ Pollable setup now s := by
  have hraised : ∀ {e : PyError}, ¬∃ emissions : List Emission,
      (Except.error e : Py _) = .ok emissions := by
    rintro e ⟨_, h⟩
    cases h
  refine Yields.bind (Q := fun outcome s₁ => (∃ packets, outcome = .ok packets) ∧
    s₁ = { s with immediate := [] }) ⟨⟨_, rfl⟩, rfl⟩ (fun immediate s₁ hs₁ => ?_) fun e s₁ hs₁ => ?_
  swap
  · obtain ⟨⟨_, h⟩, -⟩ := hs₁
    cases h
  obtain ⟨-, rfl⟩ := hs₁
  refine Yields.bind (Yields.and (pollAllProgress_returns_iff (s := { s with immediate := [] })
    hbounded) (pollAllProgress_yields _)) (fun progress s₂ hs₂ => ?_) fun e s₂ hs₂ => ?_
  swap
  · refine iff_of_false hraised fun h => ?_
    obtain ⟨_, hreturned⟩ := hs₂.1.1.mpr h.asks
    cases hreturned
  obtain ⟨⟨hasks, hcore₂⟩, hout₂, -⟩ := hs₂
  have hasks := hasks.mp ⟨progress, rfl⟩
  have hcore₂ : s₂.core = s.core := hcore₂ progress rfl
  have hactive₂ : s₂.burstActive = s.burstActive := congrArg Outbound.active hout₂
  refine Yields.bind (Yields.and (pollAllActive_returns_iff s₂) (pollAllActive_yields s₂))
    (fun active s₃ hs₃ => ?_) fun e s₃ hs₃ => ?_
  swap
  · refine iff_of_false hraised fun h => ?_
    have hgives := h.givesUp
    rw [← hactive₂, ← hcore₂] at hgives
    obtain ⟨_, hreturned⟩ := hs₃.1.mpr hgives
    cases hreturned
  obtain ⟨hgives, hqueue₃, -⟩ := hs₃
  have hgives := hgives.mp ⟨active, rfl⟩
  rw [hactive₂, hcore₂] at hgives
  have hqueue : s₃.burstQueue = s.burstQueue :=
    hqueue₃.trans (congrArg Outbound.queue hout₂)
  refine Yields.bind (pollAllQueued_yields (hqueue ▸ hsound.nodup_queue)) (fun queued s₄ _ => ?_)
    fun e s₄ hs₄ => ?_
  · exact iff_of_true ⟨_, rfl⟩ ⟨hasks, hgives⟩
  · obtain ⟨_, h, -⟩ := hs₄
    cases h

/-! ### Runs -/

theorem pollEmissions_asks (hbounded : s.inbound.Bounded) :
    (pollEmissions setup now).Yields s fun _ s' => Asks s s' := by
  have hkeeps : ∀ {α : Type} {m : Adapter α}, KeepsInbound m → m.Moves Asks := fun hm =>
    hm.mono fun _ _ h => .of_eq (congrArg Inbound.rxProgress h)
  have hactive : (pollAllActive setup now).Moves Asks :=
    Moves.get_bind fun _ => Moves.mapM fun e _ => hkeeps (pollActive_keepsInbound e)
  have hqueued : (pollAllQueued setup now).Moves Asks :=
    Moves.get_bind fun _ => Moves.mapM fun tx _ => hkeeps (pollQueued_keepsInbound tx)
  have htake : takeImmediate.Yields s fun _ s₁ => s₁ = { s with immediate := [] } := rfl
  refine Yields.bind htake (fun _ s₁ hs₁ => ?_) fun _ s₁ hs₁ => ?_
  · rw [hs₁]
    refine Yields.bind (pollAllProgress_asks (s := { s with immediate := [] }) hbounded)
      (fun _ s₂ hs₂ => ?_) fun _ s₂ hs₂ => hs₂
    refine Yields.bind_of_moves hactive (fun _ s₃ hs₃ => ?_) fun _ s₃ hs₃ => ?_
    · refine Yields.bind_of_moves hqueued (fun _ s₄ hs₄ => ?_) fun _ s₄ hs₄ => ?_
      · exact trans_of Asks hs₂ (trans_of Asks hs₃ (trans_of Asks hs₄ (.of_eq rfl)))
      · exact trans_of Asks hs₂ (trans_of Asks hs₃ hs₄)
    · exact trans_of Asks hs₂ hs₃
  · rw [hs₁]
    exact .of_eq rfl

theorem RxProgress.note_total (fragment : APRSFragment) (progress : Option RxProgress) :
    (note setup fragment now progress).total = fragment.total := by
  unfold note
  cases progress with
  | none => rfl
  | some progress =>
    dsimp only
    split
    · next htotal => exact htotal
    · rfl

namespace Inbound.Bounded

variable {i i' : Inbound} {key : TransactionKey}

theorem of_eq (h : i.Bounded) (heq : i'.rxProgress = i.rxProgress) : i'.Bounded := by
  rw [Bounded, heq]
  exact h

theorem note (h : i.Bounded) {fragment : APRSFragment} (htotal : fragment.total ≤ 16) :
    (i.note setup key fragment now).Bounded := by
  intro e he
  rcases OrderedDict.mem_entries_set.mp he with rfl | ⟨he, -⟩
  · exact (RxProgress.note_total _ _).le.trans htotal
  · exact h e he

theorem forget (h : i.Bounded) : (i.forget key).Bounded :=
  fun e he => h e (OrderedDict.mem_entries_erase.mp he).1

theorem received {peer body : Str} {outcome : Py Disposition} (h : i.Bounded)
    (hreceived : Received setup peer body now i outcome i') : i'.Bounded := by
  have hlookUp : ∀ key, (i.lookUp setup key now).Bounded := fun key => h.of_eq rfl
  have hnote : ∀ {fragment : APRSFragment}, parsePacket peer body = .ok (peer, fragment) →
      ((i.lookUp setup (peer, fragment.transactionId) now).note setup
        (peer, fragment.transactionId) fragment now).Bounded := fun parsed =>
    (hlookUp _).note (parseFragment_bounds (parsePacket_eq_ok parsed).2.2).2
  cases hreceived with
  | noFragment => exact h
  | replayed => exact (hlookUp _).forget
  | collected parsed => exact (hnote parsed).of_eq rfl
  | rejected =>
    have hforget : ∀ key, ((i.lookUp setup key now).forget key).Bounded := fun key =>
      (hlookUp key).forget
    exact (hforget _).of_eq rfl
  | crashed parsed => exact (hnote parsed).of_eq rfl
  | complete parsed _ _ effect again =>
    refine ((hnote parsed).of_eq ?_).forget
    rcases again with rfl | rfl
    · exact effect.tables_eq.2
    · exact effect.tables_eq.2
  | raised parsed _ _ effect again =>
    refine (hnote parsed).of_eq ?_
    rcases again with rfl | rfl
    · exact effect.tables_eq.2
    · exact effect.tables_eq.2

end Inbound.Bounded

theorem step_bounded (hbounded : s.inbound.Bounded) (call : Call) :
    (step setup s call).inbound.Bounded := by
  by_cases hcall : call.isInbound = false
  · rw [step_inbound hcall]
    exact hbounded
  cases call with
  | receive peer body now =>
    rw [step_receive]
    exact hbounded.received (receive_received s)
  | poll now =>
    rw [step_poll]
    have hasks : Asks s ((pollEmissions setup now).run s).2 := pollEmissions_asks hbounded
    exact hasks.bounded hbounded
  | _ => exact absurd rfl hcall

theorem runState_bounded (setup : Setup) (core : CoreState) (calls : List Call) :
    ∀ i ≤ calls.length, (runState setup core calls i).inbound.Bounded :=
  stateAt_invariant (I := fun s : APRSAdapter => s.inbound.Bounded)
    (fun _ h => absurd h List.not_mem_nil) fun _ _ h => step_bounded h _

/-- In every reachable state `poll` returns exactly if it can name what it asks for and Core knows
what it gives up. -/
theorem poll_returns_iff (setup : Setup) (core : CoreState) (calls : List Call) (now : ℚ) :
    (∃ packets, ((poll setup now).run (runState setup core calls calls.length)).1 = .ok packets) ↔
      Pollable setup now (runState setup core calls calls.length) := by
  have hsound := runState_sound setup core calls calls.length le_rfl
  have hbounded := runState_bounded setup core calls calls.length le_rfl
  have hreturns : (∃ emissions, ((pollEmissions setup now).run
      (runState setup core calls calls.length)).1 = .ok emissions) ↔
      Pollable setup now (runState setup core calls calls.length) :=
    pollEmissions_returns_iff hsound hbounded
  rw [← hreturns, poll, run_bind_pure]
  rcases ((pollEmissions setup now).run (runState setup core calls calls.length)).1 with e | es
  · constructor
    · rintro ⟨_, h⟩
      cases h
    · rintro ⟨_, h⟩
      cases h
  · exact iff_of_true ⟨_, rfl⟩ ⟨_, rfl⟩

/-- One of two fragments of the transaction `ZZZ`; ten seconds later `poll` raises. -/
theorem poll_raises_unnameable :
    ¬∃ packets, ((poll (.standard true ⟨true, true⟩) 10).run
      (runState (.standard true ⟨true, true⟩) ⟨.fresh, 1700000000, .empty⟩
        [.receive (str "EA1ABC") (str "Q1:ZZZ:00/02:AQUA") 0] 1)).1 = .ok packets := by
  have hraises : ((poll (.standard true ⟨true, true⟩) 10).run
      (runState (.standard true ⟨true, true⟩) ⟨.fresh, 1700000000, .empty⟩
        [.receive (str "EA1ABC") (str "Q1:ZZZ:00/02:AQUA") 0] 1)).1 =
      .error (.carriage "Q2 transaction ID must fit in one byte") := by decide +kernel
  rintro ⟨packets, h⟩
  rw [hraises] at h
  cases h

end OpenQSP
