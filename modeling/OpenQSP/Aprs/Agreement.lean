import OpenQSP.Aprs.Controls
import OpenQSP.Aprs.Orphans
import OpenQSP.Aprs.Reassembly
import OpenQSP.Aprs.Replying

/-!
# Progress and assemblies

Two tables follow an inbound transaction: the reassembler collects its fragments, and the progress
table remembers which of them were seen, so that `poll` can ask for the others. Every fragment,
conflict and completion changes both. An assembly that is forgotten because it is old, or because
the table is full, stays in the progress table.

## Main definitions

* `Inbound.Agrees` — both tables hold the same transactions with the same fragments
* `Spares`, `KeepsAssemblies` — a call forgets no assembly that others rely on
* `Repairable`, `RepairsExactly` — `poll` asks for what the reassembler lacks

## Main results

* `Reassembler.get?_addStep_self` — what a fragment leaves of its own transaction
* `Inbound.Agrees.received`, `Inbound.Agrees.polled` — each step keeps the agreement
* **`progress_repairable`**
-/

namespace OpenQSP

open APRSAdapter Method

variable {setup : Setup} {bounds : ReassemblyBounds} {now : ℚ}

/-! ### One fragment -/

/-- What has been collected of a transaction. -/
def Assembly.seen (entry : Assembly) : ℕ × Finset ℕ := (entry.total, entry.parts.keys.toFinset)

namespace Reassembler

variable {key : TransactionKey} {entry : Assembly} {fragment : APRSFragment} {entries : Reassembler}

/-- Where a fragment is collected and others are missing, the assembly has one index more. In every
other case it is gone. -/
theorem get?_collect_self :
    ((collect key entry fragment now entries).1 ≠ .ok none →
      (collect key entry fragment now entries).2.get? key = none) ∧
    ((collect key entry fragment now entries).1 = .ok none → ∃ entry',
      (collect key entry fragment now entries).2.get? key = some entry' ∧
      entry'.parts.size ≠ entry'.total ∧
      entry'.seen = (entry.total, insert fragment.index entry.parts.keys.toFinset)) := by
  rw [collect]
  cases fragment.part with
  | error e => exact ⟨fun _ => OrderedDict.get?_erase_self _ _, fun h => by cases h⟩
  | ok part =>
    dsimp only
    split
    · exact ⟨fun _ => OrderedDict.get?_erase_self _ _, fun h => by cases h⟩
    split
    · next hsize =>
      refine ⟨fun h => absurd rfl h, fun _ => ⟨{ entry with
        parts := entry.parts.set fragment.index part
        lastSeen := now }, ?_, hsize, ?_⟩⟩
      · rw [OrderedDict.get?_moveToEnd, OrderedDict.get?_set_self]
      · rw [Assembly.seen, OrderedDict.keys_set]
        split
        · next hmem => rw [Finset.insert_eq_self.mpr (List.mem_toFinset.mpr hmem)]
        · rw [List.toFinset_append, List.toFinset_cons, List.toFinset_nil, Finset.union_comm]
          rfl
    · refine ⟨fun _ => OrderedDict.get?_erase_self _ _, fun h => ?_⟩
      obtain ⟨_, _, h⟩ := Py.map_eq_ok.mp h
      cases h

/-- What a call leaves of its own transaction. -/
theorem get?_addStep_self (call : AddCall) :
    ((entries.add bounds call.peer call.fragment call.now).1 ≠ .ok none →
      (entries.addStep bounds call).get? call.key = none) ∧
    ((entries.add bounds call.peer call.fragment call.now).1 = .ok none → ∃ entry',
      (entries.addStep bounds call).get? call.key = some entry' ∧
      entry'.parts.size ≠ entry'.total ∧
      (((entries.expire bounds call.now).get? call.key = none ∧
          entry'.seen = (call.fragment.total, {call.fragment.index})) ∨
        ∃ entry, (entries.expire bounds call.now).get? call.key = some entry ∧
          entry.total = call.fragment.total ∧
          entry'.seen = (entry.total, insert call.fragment.index entry.parts.keys.toFinset))) := by
  rw [addStep, add, ← AddCall.key]
  cases hget : (entries.expire bounds call.now).get? call.key with
  | none =>
    dsimp only
    refine ⟨get?_collect_self.1, fun h => ?_⟩
    obtain ⟨entry', hentry', hsize, hseen⟩ := get?_collect_self.2 h
    exact ⟨entry', hentry', hsize, .inl ⟨rfl, hseen⟩⟩
  | some entry =>
    dsimp only
    split
    · exact ⟨fun _ => OrderedDict.get?_erase_self _ _, fun h => by cases h⟩
    · next hsame =>
      rw [not_or, not_not, not_not] at hsame
      refine ⟨get?_collect_self.1, fun h => ?_⟩
      obtain ⟨entry', hentry', hsize, hseen⟩ := get?_collect_self.2 h
      exact ⟨entry', hentry', hsize, .inr ⟨entry, rfl, hsame.1, hseen⟩⟩

theorem size_collect_le : (collect key entry fragment now entries).2.size ≤ entries.size + 1 ∧
    (key ∈ entries.keys → (collect key entry fragment now entries).2.size ≤ entries.size) := by
  have herase : (entries.erase key).size ≤ entries.size := OrderedDict.size_filter_le _ _
  have hset : ∀ entry', ((entries.set key entry').moveToEnd key).size ≤ entries.size + 1 ∧
      (key ∈ entries.keys → ((entries.set key entry').moveToEnd key).size ≤ entries.size) := by
    intro entry'
    rw [OrderedDict.size_moveToEnd, OrderedDict.size_set]
    split
    · exact ⟨Nat.le_succ _, fun _ => le_rfl⟩
    · next hmem => exact ⟨le_rfl, fun h => absurd h hmem⟩
  rw [collect]
  split
  · exact ⟨Nat.le_succ_of_le herase, fun _ => herase⟩
  · split
    · exact ⟨Nat.le_succ_of_le herase, fun _ => herase⟩
    · dsimp only
      split
      · exact hset _
      · exact ⟨Nat.le_succ_of_le herase, fun _ => herase⟩

variable (bounds) in
/-- The table never holds more than its bound. -/
theorem size_addStep_le (h : entries.size ≤ bounds.maxEntries) (call : AddCall) :
    (entries.addStep bounds call).size ≤ bounds.maxEntries := by
  have hexpire : (entries.expire bounds call.now).size ≤ bounds.maxEntries :=
    (OrderedDict.size_filter_le _ _).trans h
  have hpos := bounds.maxEntries_pos
  rw [addStep, add, ← AddCall.key]
  split
  · refine size_collect_le.1.trans ?_
    rw [OrderedDict.size_dropFirst]
    omega
  · next entry hget =>
    split
    · exact (OrderedDict.size_filter_le _ _).trans hexpire
    · exact (size_collect_le.2 (OrderedDict.mem_keys_iff.mpr ⟨entry, hget⟩)).trans hexpire

end Reassembler

/-! ### The invariant -/

/-- Both tables hold the same transactions, with the same totals and the same indexes. None of them
is complete, and none has completed lately. -/
structure Inbound.Agrees (i : Inbound) : Prop where
  seen : ∀ key, (i.rxProgress.get? key).map RxProgress.seen =
    (i.reassembly.get? key).map Assembly.seen
  incomplete : ∀ e ∈ i.reassembly.entries, e.2.parts.size ≠ e.2.total
  uncached : ∀ key ∈ i.replay.keys, i.reassembly.get? key = none

/-- The call forgets no assembly that the progress table goes on with. The assembly of its own
transaction may be too old, if it had nothing else or announced another total. -/
structure Reassembler.Spares (bounds : ReassemblyBounds) (call : AddCall) (entries : Reassembler) :
    Prop where
  others : ∀ e ∈ entries.entries, e.1 ≠ call.key →
    call.now - e.2.lastSeen < bounds.ttl ∧ e.1 ∉ entries.evicted bounds call
  own : ∀ entry, entries.get? call.key = some entry → bounds.ttl ≤ call.now - entry.lastSeen →
    entry.total = call.fragment.total → entry.parts.keys.toFinset ⊆ {call.fragment.index}

instance (call : AddCall) (entries : Reassembler) : Decidable (entries.Spares bounds call) :=
  decidable_of_iff ((∀ e ∈ entries.entries, e.1 ≠ call.key →
      call.now - e.2.lastSeen < bounds.ttl ∧ e.1 ∉ entries.evicted bounds call) ∧
    ∀ entry ∈ entries.get? call.key, bounds.ttl ≤ call.now - entry.lastSeen →
      entry.total = call.fragment.total → entry.parts.keys.toFinset ⊆ {call.fragment.index})
    ⟨fun h => ⟨h.1, h.2⟩, fun h => ⟨h.others, h.own⟩⟩

theorem Received.size_le {peer body : Str} {i i' : Inbound} {outcome : Py Disposition}
    (hsize : i.reassembly.size ≤ setup.config.maxReassemblies)
    (h : Received setup peer body now i outcome i') :
    i'.reassembly.size ≤ setup.config.maxReassemblies := by
  have hadd : ∀ {fragment result}, i.reassembly.add setup.config.reassembly peer fragment now =
      result → result.2.size ≤ setup.config.maxReassemblies := by
    rintro fragment _ rfl
    exact Reassembler.size_addStep_le setup.config.reassembly hsize ⟨peer, fragment, now⟩
  cases h with
  | noFragment => exact hsize
  | replayed => exact hsize
  | collected _ _ added => exact hadd added
  | rejected _ _ added => exact hadd added
  | crashed _ _ added => exact hadd added
  | complete _ _ added effect again =>
    have hle := hadd added
    rcases again with rfl | rfl
    · exact effect.tables_eq.1.symm ▸ hle
    · exact effect.tables_eq.1.symm ▸ hle
  | raised _ _ added effect again =>
    have hle := hadd added
    rcases again with rfl | rfl
    · exact effect.tables_eq.1.symm ▸ hle
    · exact effect.tables_eq.1.symm ▸ hle

namespace Reassembler.Spares

variable {call : AddCall} {entries : Reassembler}

theorem get?_addStep (h : entries.Spares bounds call) {key : TransactionKey}
    (hne : key ≠ call.key) :
    (entries.addStep bounds call).get? key = entries.get? key := by
  cases hget : entries.get? key with
  | none =>
    have hexpire : (entries.expire bounds call.now).get? key = none := by
      rw [get?_expire, hget, Option.filter_none]
    refine (get?_addStep_of_ne hne fun hmem => ?_).trans hexpire
    rw [evicted] at hmem
    split at hmem
    · exact OrderedDict.get?_eq_none_iff.mp hexpire (List.mem_of_mem_take hmem)
    · exact List.not_mem_nil hmem
  | some entry =>
    obtain ⟨hyoung, hkept⟩ := h.others (key, entry) (OrderedDict.get?_eq_some_iff.mp hget) hne
    rw [get?_addStep_of_ne hne hkept, get?_expire, hget, Option.filter_some,
      if_pos (decide_eq_true hyoung)]

end Reassembler.Spares

theorem RxProgress.note_seen (fragment : APRSFragment) (progress : Option RxProgress) :
    (RxProgress.note setup fragment now progress).seen = (fragment.total, insert fragment.index
      ((progress.filter fun progress => progress.total = fragment.total).elim ∅ (·.received))) := by
  unfold note
  cases progress with
  | none => rfl
  | some progress =>
    rw [Option.filter_some]
    dsimp only
    split
    · next htotal =>
      rw [if_pos (decide_eq_true htotal), seen, htotal]
      rfl
    · next htotal =>
      rw [if_neg (by simpa using htotal)]
      rfl

namespace Inbound.Agrees

variable {i i' : Inbound}

variable (setup now) in
/-- What a fragment leaves in both tables while others are missing. -/
theorem seen_note (h : i.Agrees) {call : AddCall} (hspares : i.reassembly.Spares bounds call)
    (hadd : (i.reassembly.add bounds call.peer call.fragment call.now).1 = .ok none) :
    ((i.reassembly.addStep bounds call).get? call.key).map Assembly.seen =
      some (RxProgress.note setup call.fragment now (i.rxProgress.get? call.key)).seen := by
  obtain ⟨entry', hentry', -, hseen⟩ := (Reassembler.get?_addStep_self _).2 hadd
  rw [hentry', Option.map_some, RxProgress.note_seen]
  have hagree := h.seen call.key
  rcases hseen with ⟨hnone, hseen⟩ | ⟨entry, hsome, htotal, hseen⟩
  · rw [hseen]
    cases hget : i.reassembly.get? call.key with
    | none =>
      rw [hget, Option.map_none, Option.map_eq_none_iff] at hagree
      rw [hagree]
      rfl
    | some entry =>
      -- the assembly was too old: the table starts again, the progress may go on
      have hold : bounds.ttl ≤ call.now - entry.lastSeen := by
        rw [Reassembler.get?_expire, hget, Option.filter_some] at hnone
        split at hnone
        · cases hnone
        · next hyoung => exact not_lt.mp (of_decide_eq_false (Bool.eq_false_iff.mpr hyoung))
      rw [hget, Option.map_some] at hagree
      obtain ⟨progress, hprogress, hsame⟩ := Option.map_eq_some_iff.mp hagree
      obtain ⟨htotal, hreceived⟩ := Prod.mk.inj hsame
      rw [hprogress, Option.filter_some]
      split
      · next htotal' =>
        have hsub := hspares.own entry hget hold (htotal.symm.trans (of_decide_eq_true htotal'))
        rw [← hreceived] at hsub
        refine congrArg some (congrArg (Prod.mk call.fragment.total) ?_)
        exact (Finset.insert_subset_iff.mpr ⟨Finset.mem_singleton_self _, hsub⟩).antisymm'
          (Finset.singleton_subset_iff.mpr (Finset.mem_insert_self _ _))
      · rfl
  · have hget := Reassembler.get?_of_get?_expire hsome
    rw [hget, Option.map_some] at hagree
    obtain ⟨progress, hprogress, hsame⟩ := Option.map_eq_some_iff.mp hagree
    obtain ⟨htotal', hreceived⟩ := Prod.mk.inj hsame
    rw [hseen, hprogress, Option.filter_some, if_pos (decide_eq_true (htotal'.trans htotal)),
      htotal]
    exact congrArg some (congrArg (fun parts =>
      (call.fragment.total, insert call.fragment.index parts)) hreceived.symm)

/-- One fragment that reaches the reassembler. -/
theorem added (h : i.Agrees) {call : AddCall} (hspares : i.reassembly.Spares bounds call)
    (hreassembly : i'.reassembly = i.reassembly.addStep bounds call)
    (hothers : ∀ key ≠ call.key, i'.rxProgress.get? key = i.rxProgress.get? key)
    (hown : (i'.rxProgress.get? call.key).map RxProgress.seen =
      (i'.reassembly.get? call.key).map Assembly.seen)
    (hreplay : ∀ key ∈ i'.replay.keys, key ≠ call.key → key ∈ i.replay.keys)
    (hcached : call.key ∈ i'.replay.keys → i'.reassembly.get? call.key = none) : i'.Agrees where
  seen key := by
    by_cases hkey : key = call.key
    · rw [hkey]
      exact hown
    · rw [hothers key hkey, h.seen key, hreassembly, hspares.get?_addStep hkey]
  incomplete e he := by
    have hget := OrderedDict.get?_eq_some_iff.mpr he
    rw [hreassembly] at hget
    by_cases hkey : e.1 = call.key
    · rw [hkey] at hget
      by_cases hadd : (i.reassembly.add bounds call.peer call.fragment call.now).1 = .ok none
      · obtain ⟨entry', hentry', hsize, -⟩ := (Reassembler.get?_addStep_self _).2 hadd
        rwa [← Option.some.inj (hget.symm.trans hentry')] at hsize
      · cases hget.symm.trans ((Reassembler.get?_addStep_self _).1 hadd)
    · rw [hspares.get?_addStep hkey] at hget
      exact h.incomplete e (OrderedDict.get?_eq_some_iff.mp hget)
  uncached key hmem := by
    by_cases hkey : key = call.key
    · rw [hkey] at hmem ⊢
      exact hcached hmem
    · rw [hreassembly, hspares.get?_addStep hkey]
      exact h.uncached key (hreplay key hmem hkey)

theorem keys_lookUp {key key' : TransactionKey}
    (hmem : key' ∈ (i.lookUp setup key now).replay.keys) :
    key' ∈ i.replay.keys := by
  obtain ⟨e, he, rfl⟩ := List.mem_map.mp hmem
  exact List.mem_map_of_mem (ReplayCache.mem_of_get he)

/-- What is not found is not in the cache afterwards. -/
theorem notMem_lookUp {key : TransactionKey} (hmiss : i.cached setup key now = none) :
    key ∉ (i.lookUp setup key now).replay.keys := by
  intro hmem
  obtain ⟨value, hvalue⟩ := OrderedDict.mem_keys_iff.mp hmem
  rw [Inbound.lookUp, ReplayCache.get, OrderedDict.get?_moveToEnd] at hvalue
  cases hmiss.symm.trans hvalue

/-- Handling a complete request puts at most that request into the cache. -/
theorem keys_handled {key : TransactionKey} {frame : Bytes} {outcome : Py Disposition}
    (heffect : Handled setup key frame now i outcome i') :
    ∀ key' ∈ i'.replay.keys, key' ≠ key → key' ∈ i.replay.keys := by
  cases heffect with
  | refused => exact fun _ hmem _ => hmem
  | notRequest => exact fun _ hmem _ => hmem
  | failed => exact fun _ hmem _ => hmem
  | completed =>
    intro key' hmem hne
    obtain ⟨e, he, rfl⟩ := List.mem_map.mp hmem
    rcases ReplayCache.mem_of_put he with rfl | ⟨he, -⟩
    · exact absurd rfl hne
    · exact List.mem_map_of_mem he

/-- One call of `receive`. -/
theorem received (h : i.Agrees) {peer body : Str} {d : Disposition}
    (hspares : ∀ fragment, parsePacket peer body = .ok (peer, fragment) →
      i.cached setup (peer, fragment.transactionId) now = none →
      i.reassembly.Spares setup.config.reassembly ⟨peer, fragment, now⟩)
    (hreceived : Received setup peer body now i (.ok d) i') : i'.Agrees := by
  cases hreceived with
  | noFragment => exact h
  | @replayed fragment replay _ parsed hit =>
    -- the transaction is in the cache, so neither table has it
    have hmem : (peer, fragment.transactionId) ∈ i.replay.keys :=
      List.mem_map_of_mem (ReplayCache.get_eq_some hit).1
    have hnone := h.uncached _ hmem
    refine ⟨fun key => ?_, h.incomplete, fun key hkey => h.uncached key (keys_lookUp hkey)⟩
    refine Eq.trans ?_ (h.seen key)
    show ((i.rxProgress.erase _).get? key).map _ = _
    by_cases hkey : key = (peer, fragment.transactionId)
    · rw [hkey, OrderedDict.get?_erase_self, h.seen, hnone]
      rfl
    · rw [OrderedDict.get?_erase_of_ne hkey]
  | @collected fragment reassembly parsed miss added =>
    have hreassembly : reassembly = i.reassembly.addStep setup.config.reassembly
        ⟨peer, fragment, now⟩ := (congrArg Prod.snd added).symm
    refine h.added (hspares fragment parsed miss) hreassembly
      (fun key hkey => OrderedDict.get?_set_of_ne hkey) ?_ (fun key hmem _ => keys_lookUp hmem)
      fun hmem => absurd hmem (notMem_lookUp miss)
    have hseen := h.seen_note setup now (hspares fragment parsed miss)
      (congrArg Prod.fst added)
    rw [hreassembly, hseen]
    exact congrArg (Option.map _) (OrderedDict.get?_set_self _ _ _)
  | @rejected fragment reassembly e d parsed miss added =>
    have hreassembly : reassembly = i.reassembly.addStep setup.config.reassembly
        ⟨peer, fragment, now⟩ := (congrArg Prod.snd added).symm
    have hnone : reassembly.get? (peer, fragment.transactionId) = none := by
      rw [hreassembly]
      refine (Reassembler.get?_addStep_self ⟨peer, fragment, now⟩).1 fun hadd => ?_
      cases (congrArg Prod.fst added).symm.trans hadd
    refine h.added (hspares fragment parsed miss) hreassembly
      (fun key hkey => OrderedDict.get?_erase_of_ne hkey) ?_ (fun key hmem _ => keys_lookUp hmem)
      fun _ => hnone
    exact (congrArg (Option.map _) (OrderedDict.get?_erase_self _ _)).trans
      (congrArg (Option.map _) hnone).symm
  | @complete fragment reassembly frame d j j' parsed miss added effect again =>
    have hreassembly : reassembly = i.reassembly.addStep setup.config.reassembly
        ⟨peer, fragment, now⟩ := (congrArg Prod.snd added).symm
    have hnone : reassembly.get? (peer, fragment.transactionId) = none := by
      rw [hreassembly]
      refine (Reassembler.get?_addStep_self ⟨peer, fragment, now⟩).1 fun hadd => ?_
      cases (congrArg Prod.fst added).symm.trans hadd
    obtain ⟨hassemblies, hprogress⟩ := effect.tables_eq
    have htables : j'.reassembly = j.reassembly ∧ j'.rxProgress = j.rxProgress ∧
        ∀ key ∈ j'.replay.keys, key ∈ j.replay.keys := by
      rcases again with rfl | rfl
      · exact ⟨rfl, rfl, fun _ hmem => hmem⟩
      · exact ⟨rfl, rfl, fun _ hmem => keys_lookUp hmem⟩
    have hassemblies : j'.reassembly = reassembly := htables.1.trans hassemblies
    have hprogress := htables.2.1.trans hprogress
    refine h.added (hspares fragment parsed miss) (hassemblies.trans hreassembly)
      (fun key hkey => ?_) ?_ (fun key hmem hkey => ?_) fun _ => ?_
    · exact (OrderedDict.get?_erase_of_ne hkey).trans
        (hprogress ▸ OrderedDict.get?_set_of_ne hkey)
    · refine (congrArg (Option.map _) (OrderedDict.get?_erase_self _ _)).trans ?_
      exact (congrArg (Option.map _) ((congrArg (OrderedDict.get? · _) hassemblies).trans
        hnone)).symm
    · exact keys_lookUp (keys_handled effect key (htables.2.2 key hmem) hkey)
    · exact (congrArg (OrderedDict.get? · _) hassemblies).trans hnone

/-- Fragments are missing of every transaction. -/
theorem lacks (h : i.Agrees) (hsound : i.reassembly.Sound) {key : TransactionKey}
    {progress : RxProgress} (hget : i.rxProgress.get? key = some progress) : ∃ entry,
      i.reassembly.get? key = some entry ∧ entry.seen = progress.seen ∧ progress.missing ≠ ∅ := by
  have hagree := h.seen key
  rw [hget, Option.map_some] at hagree
  obtain ⟨entry, hentry, hseen⟩ := Option.map_eq_some_iff.mp hagree.symm
  refine ⟨entry, hentry, hseen, fun hmissing => ?_⟩
  have hmem := OrderedDict.get?_eq_some_iff.mp hentry
  rw [RxProgress.missing_eq, ← hseen, Assembly.seen] at hmissing
  have hkeys : entry.parts.keys.toFinset = Finset.range entry.total := by
    refine Finset.Subset.antisymm (fun index hindex => ?_)
      (Finset.sdiff_eq_empty_iff_subset.mp hmissing)
    obtain ⟨e, he, rfl⟩ := List.mem_map.mp (List.mem_toFinset.mp hindex)
    exact Finset.mem_range.mpr ((hsound _ hmem).parts e he).1
  refine h.incomplete _ hmem ?_
  have hcard := List.toFinset_card_of_nodup entry.parts.nodup_keys
  have hkeys' := congrArg Finset.card hkeys
  rw [Finset.card_range] at hkeys'
  exact (hcard.trans (List.length_map _)).symm.trans hkeys'

/-- One `poll`, when no assembly is too old. -/
theorem polled {s s' : APRSAdapter} (h : s.inbound.Agrees) (hsound : s.reassembly.Sound)
    (hyoung : ∀ e ∈ s.reassembly.entries, now - e.2.lastSeen < setup.config.reassembly.ttl)
    (hasks : Asks s s')
    (hreassembly : s'.reassembly = s.reassembly ∨
      s'.reassembly = s.reassembly.expire setup.config.reassembly now)
    (hreplay : ∀ key ∈ s'.replay.keys, key ∈ s.replay.keys) : s'.inbound.Agrees := by
  have hsame : s'.reassembly = s.reassembly := by
    refine hreassembly.elim id fun hexpire => hexpire.trans ?_
    exact OrderedDict.filter_eq_self fun e he => decide_eq_true (not_le.mpr (hyoung e he))
  refine ⟨fun key => ?_, fun e he => ?_, fun key hkey => ?_⟩
  · rcases hasks key with heq | ⟨-, progress, hget, hmissing⟩
    · refine heq.trans ((h.seen key).trans ?_)
      exact congrArg (fun entries : Reassembler => (entries.get? key).map Assembly.seen) hsame.symm
    · obtain ⟨-, -, -, hne⟩ := h.lacks hsound hget
      exact absurd hmissing hne
  · exact h.incomplete e ((congrArg (fun entries : Reassembler => entries.entries) hsame) ▸ he)
  · exact (congrArg (OrderedDict.get? · key) hsame).trans (h.uncached key (hreplay key hkey))

end Inbound.Agrees

/-! ### Runs -/

/-- The call forgets no assembly that the progress table goes on with. -/
def KeepsAssemblies (setup : Setup) (s : APRSAdapter) : Call → Prop
  | .receive peer body now => ∀ fragment, parsePacket peer body = .ok (peer, fragment) →
    s.inbound.cached setup (peer, fragment.transactionId) now = none →
    s.reassembly.Spares setup.config.reassembly ⟨peer, fragment, now⟩
  | .poll now => ∀ e ∈ s.reassembly.entries,
    now - e.2.lastSeen < setup.config.reassembly.ttl
  | _ => True

variable {s : APRSAdapter}

instance decidableKeepsAssemblies : ∀ call, Decidable (KeepsAssemblies setup s call)
  | .receive peer body now =>
    match hparse : parsePacket peer body with
    | .ok result => decidable_of_iff (result.1 = peer →
        s.inbound.cached setup (peer, result.2.transactionId) now = none →
        s.reassembly.Spares setup.config.reassembly ⟨peer, result.2, now⟩)
      ⟨fun h fragment hfragment => by
        obtain rfl := Except.ok.inj (hparse.symm.trans hfragment)
        exact h rfl, fun h hpeer => h result.2 (hparse.trans (by rw [← hpeer]))⟩
    | .error _ => isTrue fun _ hfragment => by cases hparse.symm.trans hfragment
  | .poll now => inferInstanceAs (Decidable (∀ e ∈ s.reassembly.entries, _))
  | .queueFrame .. | .deliverMessage .. | .connectionLost | .core _ => isTrue trivial

theorem step_agrees (h : s.inbound.Agrees) (hsound : s.reassembly.Sound)
    (hbounded : s.inbound.Bounded) {call : Call} (hkeeps : KeepsAssemblies setup s call)
    (hreturns : ∃ response, answer setup s call = .ok response) :
    (step setup s call).inbound.Agrees := by
  by_cases hcall : call.isInbound = false
  · rw [step_inbound hcall]
    exact h
  cases call with
  | receive peer body now =>
    have hreceived : Received setup peer body now s.inbound _ _ := receive_received s
    obtain ⟨response, hreturns⟩ := hreturns
    rw [answer_receive] at hreturns
    obtain ⟨d, hd, -⟩ := Py.map_eq_ok.mp hreturns
    rw [hd] at hreceived
    rw [step_receive]
    exact h.received hkeeps hreceived
  | poll now =>
    rw [step_poll]
    have hasks : Asks s ((pollEmissions setup now).run s).2 := pollEmissions_asks hbounded
    obtain ⟨-, hcaches⟩ : Yields _ _ _ := pollEmissions_inbound s
    refine h.polled hsound hkeeps hasks (hcaches.imp And.left And.left) fun key hkey => ?_
    rcases hcaches with ⟨-, hreplay, -⟩ | ⟨-, hreplay, -⟩
    · rwa [hreplay] at hkey
    · rw [hreplay] at hkey
      obtain ⟨e, he, rfl⟩ := List.mem_map.mp hkey
      exact List.mem_map_of_mem (ReplayCache.mem_expire.mp he).1
  | _ => exact absurd rfl hcall

theorem step_size (h : s.reassembly.size ≤ setup.config.maxReassemblies) (call : Call) :
    (step setup s call).reassembly.size ≤ setup.config.maxReassemblies := by
  by_cases hcall : call.isInbound = false
  · rw [show (step setup s call).reassembly = s.reassembly from
      congrArg Inbound.reassembly (step_inbound hcall s)]
    exact h
  cases call with
  | receive peer body now =>
    rw [step_receive]
    have hreceived : Received setup peer body now s.inbound _ _ := receive_received s
    exact hreceived.size_le h
  | poll now =>
    rw [step_poll]
    obtain ⟨-, hcaches⟩ : Yields _ _ _ := pollEmissions_inbound s
    rcases hcaches with ⟨hreassembly, -⟩ | ⟨hreassembly, -⟩
    · rwa [hreassembly]
    · rw [hreassembly]
      exact (OrderedDict.size_filter_le _ _).trans h
  | _ => exact absurd rfl hcall

/-- The reassembler never holds more than its bound. -/
theorem runState_size (setup : Setup) (core : CoreState) (calls : List Call) : ∀ i ≤ calls.length,
    (runState setup core calls i).reassembly.size ≤ setup.config.maxReassemblies :=
  stateAt_invariant (I := fun s : APRSAdapter => s.reassembly.size ≤ setup.config.maxReassemblies)
    (Nat.zero_le _) fun _ _ h => step_size h _

/-! ### What `poll` asks for -/

/-- An answer asks for nothing. -/
theorem Reply.noRepair {peer : Str} {packet : OutboundPacket} (h : Reply setup peer packet)
    (transactionId : Str) (missing : Finset ℕ) :
    parseBurstControl packet.body ≠ some (.missing transactionId missing) := by
  cases h with
  | @rejected messageId base36 =>
    have htake : (str "rej" ++ messageId).take 2 = str "re" := rfl
    rw [parseBurstControl_of_take]
    · exact fun h => by cases h
    all_goals
      show (str "rej" ++ messageId).take 2 ≠ _
      rw [htake]
      decide
  | acknowledged encoded =>
    rw [parseBurstControl_ack encoded]
    exact fun h => by cases h
  | stored encoded =>
    rw [((controls_roundTrip _ ∅).2.1 _ encoded).control]
    exact fun h => by cases h

/-- Every transaction of the progress table lacks a fragment, its assembly is in the reassembler
with the fragments that were noted, and there are at most as many as it may hold. -/
structure Repairable (setup : Setup) (s : APRSAdapter) : Prop where
  lacks : ∀ key progress, s.rxProgress.get? key = some progress → progress.missing ≠ ∅
  held : ∀ key progress, s.rxProgress.get? key = some progress →
    ∃ entry, s.reassembly.get? key = some entry ∧ entry.total = progress.total ∧
      entry.parts.keys.toFinset = progress.received
  bounded : s.rxProgress.entries.length ≤ setup.config.maxReassemblies

/-- Whatever this call asks a peer for is exactly what the reassembler lacks of an assembly that is
not too old. -/
def RepairsExactly (setup : Setup) (s : APRSAdapter) : Call → Prop
  | .poll now => ∀ es, ((pollEmissions setup now).run s).1 = .ok es →
    ∀ packet, .control packet ∈ es → ∀ transactionId missing,
      parseBurstControl packet.body = some (.missing transactionId missing) →
      ∃ entry, s.reassembly.get? (packet.destination, transactionId) = some entry ∧
        now - entry.lastSeen < setup.config.reassembly.ttl ∧
        missing = Finset.range entry.total \ entry.parts.keys.toFinset
  | _ => True

theorem Inbound.Agrees.repairable (h : s.inbound.Agrees) (hsound : s.reassembly.Sound)
    (hsize : s.reassembly.size ≤ setup.config.maxReassemblies) : Repairable setup s where
  lacks key progress hget := by
    obtain ⟨-, -, -, hmissing⟩ := h.lacks hsound hget
    exact hmissing
  held key progress hget := by
    obtain ⟨entry, hentry, hseen, -⟩ := h.lacks hsound hget
    exact ⟨entry, hentry, congrArg Prod.fst hseen, congrArg Prod.snd hseen⟩
  bounded := by
    -- the keys of the one table are keys of the other
    have hsub : ∀ e ∈ s.rxProgress.entries, e.1 ∈ s.reassembly.keys := by
      intro e he
      obtain ⟨entry, hentry, -⟩ := h.lacks hsound (OrderedDict.get?_eq_some_iff.mpr he)
      exact OrderedDict.mem_keys_iff.mpr ⟨entry, hentry⟩
    have hkeys : s.rxProgress.keys ⊆ s.reassembly.keys := by
      intro key hkey
      obtain ⟨e, he, rfl⟩ := List.mem_map.mp hkey
      exact hsub e he
    have hle := (s.rxProgress.nodup_keys.subperm hkeys).length_le
    simp only [OrderedDict.keys, List.length_map] at hle
    exact hle.trans hsize

theorem Inbound.Agrees.repairsExactly (h : s.inbound.Agrees) (hsound : s.reassembly.Sound)
    (hreplies : ∀ packet ∈ s.immediate, ∃ peer, validatePeer peer = .ok peer ∧
      Reply setup peer packet) {call : Call} (hkeeps : KeepsAssemblies setup s call) :
    RepairsExactly setup s call := by
  cases call with
  | poll now =>
    intro es hes packet hpacket transactionId missing hparse
    have hcontrols : ∀ es, _ = Except.ok es → _ := pollEmissions_controls setup now s
    rcases hcontrols es hes packet hpacket with hwaited | ⟨e, he, -, body, hbody, rfl⟩
    · obtain ⟨peer, -, hreply⟩ := hreplies packet hwaited
      exact absurd hparse (hreply.noRepair _ _)
    · obtain ⟨rfl, rfl⟩ := BurstControl.missing.inj
        (Option.some.inj ((parseBurstControl_missing hbody).symm.trans hparse))
      obtain ⟨entry, hentry, hseen, -⟩ := h.lacks hsound (OrderedDict.get?_eq_some_iff.mpr he)
      refine ⟨entry, hentry, hkeeps _ (OrderedDict.get?_eq_some_iff.mp hentry), ?_⟩
      rw [RxProgress.missing_eq, ← hseen]
      rfl
  | _ => trivial

/-- As long as no assembly is forgotten that the progress table goes on with, both tables agree
after every call, and `poll` asks for exactly what is missing. -/
theorem progress_repairable (setup : Setup) (core : CoreState) (calls : List Call)
    (hreturns : ∀ i (h : i < calls.length), ∃ response,
      answer setup (runState setup core calls i) calls[i] = .ok response)
    (hkeeps : ∀ i (h : i < calls.length),
      KeepsAssemblies setup (runState setup core calls i) calls[i]) :
    (∀ i ≤ calls.length, Repairable setup (runState setup core calls i)) ∧
    ∀ i (h : i < calls.length), RepairsExactly setup (runState setup core calls i) calls[i] := by
  have hsound := runState_assembling setup core calls
  have hagrees : ∀ i ≤ calls.length, (runState setup core calls i).inbound.Agrees := by
    refine stateAt_invariant (I := fun s : APRSAdapter => s.inbound.Agrees)
      ⟨fun _ => rfl, fun _ he => absurd he List.not_mem_nil,
        fun _ hkey => absurd hkey List.not_mem_nil⟩ fun i hi h => ?_
    exact step_agrees h (hsound i hi.le) (runState_bounded setup core calls i hi.le) (hkeeps i hi)
      (hreturns i hi)
  refine ⟨fun i hi => (hagrees i hi).repairable (hsound i hi) (runState_size setup core calls i hi),
    fun i hi => (hagrees i hi.le).repairsExactly (hsound i hi.le)
      (runState_replies setup core calls i hi.le) (hkeeps i hi)⟩

/-- The second of two fragments is late; `poll` asks for it, and it completes the request. -/
def repairedRequest : List Call :=
  [.receive (str "EA1ABC") (str "Q1:000:00/02:AQUA") 0, .poll 10,
    .receive (str "EA1ABC") (str "Q1:000:01/02:AA") 11, .poll 12]

theorem progress_repairable_repaired :
    (∀ i ≤ repairedRequest.length, Repairable (.standard true ⟨true, true⟩)
      (runState (.standard true ⟨true, true⟩) ⟨.fresh, 1700000000, .empty⟩ repairedRequest i)) ∧
    ∀ i (h : i < repairedRequest.length), RepairsExactly (.standard true ⟨true, true⟩)
      (runState (.standard true ⟨true, true⟩) ⟨.fresh, 1700000000, .empty⟩ repairedRequest i)
      repairedRequest[i] := by
  refine progress_repairable _ _ _ (fun i hi => ?_) fun i hi => ?_
  · have hok : ∀ i, (h : i < repairedRequest.length) → (answer (.standard true ⟨true, true⟩)
        (runState (.standard true ⟨true, true⟩) ⟨.fresh, 1700000000, .empty⟩ repairedRequest i)
        repairedRequest[i]).isOk = true := by decide +kernel
    exact returns_of_isOk (hok i hi)
  · have hkeeps : ∀ i, (h : i < repairedRequest.length) →
        KeepsAssemblies (.standard true ⟨true, true⟩)
          (runState (.standard true ⟨true, true⟩) ⟨.fresh, 1700000000, .empty⟩ repairedRequest i)
          repairedRequest[i] := by decide +kernel
    exact hkeeps i hi

end OpenQSP
