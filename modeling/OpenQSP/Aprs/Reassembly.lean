import OpenQSP.Aprs.Fragments
import OpenQSP.Lib.Runs

/-!
# Reassembly over whole runs

The calls of `Reassembler.add` arrive in any order: fragments of many transactions, each any number
of times. Seen from one transaction the table is a collector of numbered parts, which returns
nothing until every index has occurred, then the frame, and starts again. The other transactions do
not notice it, unless the table is full and somebody has to give way.

## Main definitions

* `AddCall`, `Reassembler.addStep`, `Reassembler.results` — a run of calls
* `gather` — the collector of one transaction
* `Assembly.Holds`, `Reassembler.Collecting` — what the table holds for it
* `Reassembler.evicted` — who gives way to a call

## Main results

* `Reassembler.add_collecting` — one call of the transaction
* `Reassembler.results_key`, `Reassembler.results_others` — whole runs
* **`fragments_reassembled`** — carriage and reassembly
-/

namespace OpenQSP

/-! ### Runs -/

/-- A call of `Reassembler.add`. -/
structure AddCall where
  peer : Str
  fragment : APRSFragment
  now : ℚ

def AddCall.key (call : AddCall) : TransactionKey := (call.peer, call.fragment.transactionId)

namespace Reassembler

variable (bounds : ReassemblyBounds)

def addStep (entries : Reassembler) (call : AddCall) : Reassembler :=
  (entries.add bounds call.peer call.fragment call.now).2

/-- What the calls of a run return, in order. -/
def results : Reassembler → List AddCall → List (Py (Option Bytes))
  | _, [] => []
  | entries, call :: calls =>
    (entries.add bounds call.peer call.fragment call.now).1 :: results
      (entries.addStep bounds call) calls

/-- The transactions that a call evicts because the table is full. -/
def evicted (call : AddCall) (entries : Reassembler) : List TransactionKey :=
  let entries := entries.expire bounds call.now
  if entries.get? call.key = none then entries.keys.take
    (entries.size + 1 - bounds.maxEntries) else []

end Reassembler

/-- What a collector of `total` numbered parts returns that has seen some of them. -/
def gather (frame : Bytes) (total : ℕ) : Finset ℕ → List ℕ → List (Option Bytes)
  | _, [] => []
  | seen, index :: indices =>
    if insert index seen = Finset.range total then some frame :: gather frame total ∅ indices
    else none :: gather frame total (insert index seen) indices

/-! ### One transaction -/

/-- The assembly has the parts of the fragments with these indices, and no others. -/
structure Assembly.Holds (entry : Assembly) (profile : Profile) (fragments : List APRSFragment)
    (seen : Finset ℕ) : Prop where
  version : entry.version = profile.version
  total : entry.total = fragments.length
  parts : ∀ index part, entry.parts.get? index = some part ↔
    index ∈ seen ∧ ∃ fragment ∈ fragments, fragment.index = index ∧ fragment.part = .ok part
  subset : seen ⊆ Finset.range fragments.length

/-- What the table holds for a transaction of which these indices have occurred, the last one at the
time `last`. -/
def Reassembler.Collecting (entries : Reassembler) (key : TransactionKey) (profile : Profile)
    (fragments : List APRSFragment) (seen : Finset ℕ) (last : ℚ) : Prop :=
  (seen = ∅ ∧ entries.get? key = none) ∨
    ∃ entry, entries.get? key = some entry ∧ entry.lastSeen = last ∧
      entry.Holds profile fragments seen

section Transaction

variable {bounds : ReassemblyBounds} {profile : Profile} {frame : Bytes} {transactionId : Str}
  {fragments : List APRSFragment} {fragment : APRSFragment} {key : TransactionKey} {now : ℚ}
  {entry : Assembly} {entries : Reassembler} {seen : Finset ℕ}

/-- The index tells the fragment. -/
theorem Fragmentation.eq_of_index (h : Fragmentation profile frame transactionId fragments)
    {fragment' : APRSFragment} (hmem : fragment ∈ fragments) (hmem' : fragment' ∈ fragments)
    (hindex : fragment.index = fragment'.index) : fragment = fragment' := by
  obtain ⟨i, hi, rfl⟩ := List.getElem_of_mem hmem
  obtain ⟨j, hj, rfl⟩ := List.getElem_of_mem hmem'
  rw [h.index i hi, h.index j hj] at hindex
  subst hindex
  rfl

theorem Fragmentation.index_lt (h : Fragmentation profile frame transactionId fragments)
    (hmem : fragment ∈ fragments) : fragment.index < fragments.length := by
  obtain ⟨i, hi, rfl⟩ := List.getElem_of_mem hmem
  rw [h.index i hi]
  exact hi

namespace Assembly

theorem holds_empty (h : Fragmentation profile frame transactionId fragments)
    (hmem : fragment ∈ fragments) :
    Holds ⟨fragment.total, now, now, fragment.version, .empty⟩ profile fragments ∅ where
  version := h.version fragment hmem
  total := h.total fragment hmem
  parts := fun _ _ => iff_of_false nofun fun hin => Finset.notMem_empty _ hin.1
  subset := Finset.empty_subset _

theorem Holds.size_parts (hentry : entry.Holds profile fragments seen)
    (h : Fragmentation profile frame transactionId fragments) : entry.parts.size = seen.card := by
  have hkeys : entry.parts.keys.toFinset = seen := by
    ext index
    rw [List.mem_toFinset, OrderedDict.mem_keys_iff]
    constructor
    · rintro ⟨part, hpart⟩
      exact ((hentry.parts index part).mp hpart).1
    · intro hindex
      have hlt := Finset.mem_range.mp (hentry.subset hindex)
      obtain ⟨part, hpart⟩ := h.part fragments[index] (List.getElem_mem hlt)
      exact ⟨part, (hentry.parts index part).mpr
        ⟨hindex, fragments[index], List.getElem_mem hlt, h.index index hlt, hpart⟩⟩
  have hcard := List.toFinset_card_of_nodup (l := entry.parts.keys) entry.parts.nodup_keys
  rw [← hkeys, hcard, OrderedDict.keys, List.length_map]
  rfl

/-- Adding a fragment of the same frame. -/
theorem Holds.set (hentry : entry.Holds profile fragments seen)
    (h : Fragmentation profile frame transactionId fragments) (hmem : fragment ∈ fragments)
    {part : Part} (hpart : fragment.part = .ok part) :
    Holds { entry with parts := entry.parts.set fragment.index part, lastSeen := now } profile
      fragments
      (insert fragment.index seen) where
  version := hentry.version
  total := hentry.total
  subset := Finset.insert_subset (Finset.mem_range.mpr (h.index_lt hmem)) hentry.subset
  parts := by
    intro index other
    show (entry.parts.set fragment.index part).get? index = some other ↔ _
    rw [Finset.mem_insert, OrderedDict.get?_set]
    split
    · next heq =>
      subst heq
      constructor
      · intro hsome
        obtain rfl := Option.some.inj hsome
        exact ⟨.inl rfl, fragment, hmem, rfl, hpart⟩
      · rintro ⟨-, fragment', hmem', hindex, hpart'⟩
        rw [h.eq_of_index hmem' hmem hindex, hpart] at hpart'
        rw [Except.ok.inj hpart']
    · next hne =>
      rw [hentry.parts, or_iff_right hne]

/-- A complete assembly makes the frame. -/
theorem Holds.frame_eq (hentry : entry.Holds profile fragments seen)
    (h : Fragmentation profile frame transactionId fragments)
    (hseen : seen = Finset.range fragments.length) : entry.frame = .ok frame := by
  refine h.frame entry hentry.version hentry.total fun fragment hmem => ?_
  obtain ⟨part, hpart⟩ := h.part fragment hmem
  exact ⟨part, hpart, (hentry.parts _ _).mpr
    ⟨hseen ▸ Finset.mem_range.mpr (h.index_lt hmem), fragment, hmem, rfl, hpart⟩⟩

end Assembly

namespace Reassembler

/-- Another fragment of the frame is added to what was collected. -/
theorem collect_holds (hentry : entry.Holds profile fragments seen)
    (h : Fragmentation profile frame transactionId fragments) (hmem : fragment ∈ fragments) :
    (collect key entry fragment now entries).1 =
        .ok (if insert fragment.index seen = Finset.range fragments.length then some frame
          else none) ∧
      (collect key entry fragment now entries).2.Collecting key profile fragments
        (if insert fragment.index seen = Finset.range fragments.length then ∅
          else insert fragment.index seen) now := by
  obtain ⟨part, hpart⟩ := h.part fragment hmem
  have hset : Assembly.Holds { entry with
      parts := entry.parts.set fragment.index part
      lastSeen := now } profile fragments (insert fragment.index seen) := hentry.set h hmem hpart
  have hagree : (entry.parts.get? fragment.index).any (· ≠ part) = false := by
    cases hget : entry.parts.get? fragment.index with
    | none => rfl
    | some other =>
      obtain ⟨-, fragment', hmem', hindex, hpart'⟩ := (hentry.parts _ _).mp hget
      rw [h.eq_of_index hmem' hmem hindex, hpart] at hpart'
      obtain rfl := Except.ok.inj hpart'
      simp
  have hsize : (entry.parts.set fragment.index part).size ≠ entry.total ↔
      insert fragment.index seen ≠ Finset.range fragments.length := by
    refine not_congr ?_
    rw [hset.size_parts h, hentry.total]
    constructor
    · exact fun hcard => Finset.eq_of_subset_of_card_le hset.subset
        (by rw [hcard, Finset.card_range])
    · exact fun heq => by rw [heq, Finset.card_range]
  rw [collect, hpart]
  dsimp only
  rw [hagree, if_neg Bool.false_ne_true]
  split
  · next hincomplete =>
    rw [hsize] at hincomplete
    rw [if_neg hincomplete, if_neg hincomplete]
    refine ⟨rfl, .inr ⟨_, ?_, rfl, hset⟩⟩
    rw [OrderedDict.get?_moveToEnd, OrderedDict.get?_set_self]
  · next hcomplete =>
    rw [hsize, not_not] at hcomplete
    rw [if_pos hcomplete, if_pos hcomplete, hset.frame_eq h hcomplete]
    exact ⟨rfl, .inl ⟨rfl, OrderedDict.get?_erase_self _ _⟩⟩

theorem get?_expire (key : TransactionKey) : (entries.expire bounds now).get? key =
    (entries.get? key).filter fun entry => now - entry.lastSeen < bounds.ttl := by
  rw [expire, OrderedDict.get?_filter]
  simp only [not_le]

/-- One call of the transaction. -/
theorem add_collecting {call : AddCall} {last : ℚ}
    (hentries : entries.Collecting call.key profile fragments seen last)
    (h : Fragmentation profile frame transactionId fragments) (hmem : call.fragment ∈ fragments)
    (hlast : call.now - last < bounds.ttl) :
    (entries.add bounds call.peer call.fragment call.now).1 = .ok (if
        insert call.fragment.index seen = Finset.range fragments.length then some frame else none) ∧
      (entries.addStep bounds call).Collecting call.key profile fragments
        (if insert call.fragment.index seen = Finset.range fragments.length then ∅
          else insert call.fragment.index seen) call.now := by
  rw [addStep, add, ← AddCall.key]
  rcases hentries with ⟨rfl, hnone⟩ | ⟨entry, hsome, rfl, hentry⟩
  · rw [get?_expire, hnone, Option.filter_none]
    exact collect_holds (Assembly.holds_empty h hmem) h hmem
  · rw [get?_expire, hsome, Option.filter_some, if_pos (decide_eq_true hlast)]
    dsimp only
    rw [if_neg]
    · exact collect_holds hentry h hmem
    · rw [hentry.total, hentry.version, h.total _ hmem, h.version _ hmem]
      simp

/-! ### Calls of other transactions -/

theorem get?_collect_of_ne {key' : TransactionKey} (hne : key ≠ key') :
    (collect key' entry fragment now entries).2.get? key = entries.get? key := by
  rw [collect]
  split
  · exact OrderedDict.get?_erase_of_ne hne
  · split
    · exact OrderedDict.get?_erase_of_ne hne
    · dsimp only
      split
      · rw [OrderedDict.get?_moveToEnd, OrderedDict.get?_set_of_ne hne]
      · exact OrderedDict.get?_erase_of_ne hne

/-- A call of another transaction only lets time pass, unless it evicts. -/
theorem get?_addStep_of_ne {call : AddCall} (hne : key ≠ call.key)
    (hkept : key ∉ evicted bounds call entries) :
    (entries.addStep bounds call).get? key = (entries.expire bounds call.now).get? key := by
  rw [evicted] at hkept
  rw [addStep, add, ← AddCall.key]
  split
  · next hnone =>
    rw [if_pos hnone] at hkept
    rw [get?_collect_of_ne hne, OrderedDict.get?_dropFirst hkept]
  · split
    · exact OrderedDict.get?_erase_of_ne hne
    · exact get?_collect_of_ne hne

/-- **One transaction.** The calls of the transaction return what the collector of its fragments
returns. -/
theorem results_key (h : Fragmentation profile frame transactionId fragments) {calls : List AddCall}
    {last : ℚ} (hentries : entries.Collecting key profile fragments seen last)
    (hcalls : ∀ call ∈ calls, call.key = key → call.fragment ∈ fragments)
    (hclock : calls.Pairwise (·.now ≤ ·.now))
    (hgaps : (last :: (calls.filter (·.key = key)).map (·.now)).IsChain
      fun earlier later => later - earlier < bounds.ttl)
    (hkept : ∀ i (hi : i < calls.length),
      key ∉ evicted bounds calls[i] (stateAt (addStep bounds) entries calls i)) :
    ((calls.zip (results bounds entries calls)).filter (·.1.key = key)).map Prod.snd =
      (gather frame fragments.length seen
        ((calls.filter (·.key = key)).map (·.fragment.index))).map .ok := by
  induction calls generalizing entries seen last with
  | nil => rfl
  | cons call calls ih =>
    have hcalls' : ∀ call ∈ calls, call.key = key → call.fragment ∈ fragments :=
      fun call hcall => hcalls call (List.mem_cons_of_mem _ hcall)
    have hkept' : ∀ i (hi : i < calls.length),
        key ∉ evicted bounds calls[i] (stateAt (addStep bounds) (entries.addStep bounds call)
          calls i) :=
      fun i hi => hkept (i + 1) (Nat.succ_lt_succ hi)
    obtain ⟨hlater, hclock'⟩ := List.pairwise_cons.mp hclock
    rw [results, List.zip_cons_cons]
    by_cases hkey : call.key = key
    · rw [List.filter_cons_of_pos (by simpa using hkey)] at hgaps
      rw [List.filter_cons_of_pos (by simpa using hkey),
        List.filter_cons_of_pos (by simpa using hkey)]
      obtain ⟨hlast, hgaps'⟩ := List.isChain_cons_cons.mp hgaps
      obtain ⟨hresult, hcollecting⟩ := add_collecting (hkey ▸ hentries) h
        (hcalls call List.mem_cons_self hkey) hlast
      have hrest := ih (hkey ▸ hcollecting) hcalls' hclock' hgaps' hkept'
      rw [List.map_cons, List.map_cons, hrest, hresult, gather]
      split
      · rw [List.map_cons]
      · rw [List.map_cons]
    · rw [List.filter_cons_of_neg (by simpa using hkey)] at hgaps
      rw [List.filter_cons_of_neg (by simpa using hkey),
        List.filter_cons_of_neg (by simpa using hkey)]
      cases hnext : calls.filter (·.key = key) with
      | nil =>
        have hnone : ∀ p ∈ calls.zip (results bounds (entries.addStep bounds call) calls),
            ¬decide (p.1.key = key) = true := by
          intro p hp
          exact List.filter_eq_nil_iff.mp hnext p.1 (List.of_mem_zip hp).1
        rw [List.filter_eq_nil_iff.mpr hnone]
        rfl
      | cons next more =>
        rw [← hnext]
        refine ih ?_ hcalls' hclock' hgaps hkept'
        -- The call comes before the next one of the transaction, so the assembly is still there.
        have hmem : next ∈ calls := (List.mem_filter.mp (hnext ▸ List.mem_cons_self)).1
        rw [hnext, List.map_cons] at hgaps
        have hgap := (List.isChain_cons_cons.mp hgaps).1
        have hle := hlater next hmem
        have hstep := get?_addStep_of_ne (Ne.symm hkey) (hkept 0 (Nat.succ_pos _))
        rw [get?_expire] at hstep
        rcases hentries with ⟨rfl, hnone⟩ | ⟨entry, hsome, rfl, hentry⟩
        · refine .inl ⟨rfl, hstep.trans ?_⟩
          rw [stateAt_zero, hnone, Option.filter_none]
        · refine .inr ⟨entry, hstep.trans ?_, rfl, hentry⟩
          rw [stateAt_zero, hsome, Option.filter_some, if_pos]
          exact decide_eq_true (lt_of_le_of_lt (sub_le_sub_right hle _) hgap)

/-! ### The table without the transaction -/

theorem expire_erase (key : TransactionKey) :
    expire bounds now (entries.erase key) = (entries.expire bounds now).erase key :=
  OrderedDict.filter_filter_comm _ _ _

/-- What is forgotten earlier is forgotten later. -/
theorem expire_expire {later : ℚ} (h : now ≤ later) :
    (entries.expire bounds now).expire bounds later = entries.expire bounds later := by
  refine OrderedDict.ext ?_
  show (entries.entries.filter _).filter _ = entries.entries.filter _
  rw [List.filter_filter]
  refine List.filter_congr fun e _ => ?_
  rw [Bool.and_eq_left_iff_imp, decide_eq_true_eq, decide_eq_true_eq, not_le, not_le]
  exact fun hlt => lt_of_le_of_lt (sub_le_sub_right h _) hlt

theorem collect_erase_of_ne {key' : TransactionKey} (hne : key' ≠ key) :
    collect key' entry fragment now (entries.erase key) =
      ((collect key' entry fragment now entries).1,
        (collect key' entry fragment now entries).2.erase key) := by
  have herase : (entries.erase key).erase key' = (entries.erase key').erase key :=
    OrderedDict.filter_filter_comm _ _ _
  rw [collect, collect]
  cases fragment.part with
  | error e => exact congrArg _ herase
  | ok part =>
    dsimp only
    split
    · exact congrArg _ herase
    · split
      · rw [OrderedDict.erase_moveToEnd, OrderedDict.erase_set_of_ne hne]
      · exact congrArg _ herase

theorem collect_erase_self :
    (collect key entry fragment now entries).2.erase key = entries.erase key := by
  have herase : (entries.erase key).erase key = entries.erase key :=
    OrderedDict.filter_eq_self fun e he => (OrderedDict.mem_entries_filter.mp he).2
  rw [collect]
  split
  · exact herase
  · split
    · exact herase
    · dsimp only
      split
      · rw [OrderedDict.erase_moveToEnd, OrderedDict.erase_set, OrderedDict.moveToEnd_of_notMem]
        rw [← OrderedDict.get?_eq_none_iff]
        exact OrderedDict.get?_erase_self _ _
      · exact herase

/-- A call evicts nobody when there is room. -/
theorem evicted_eq_nil {call : AddCall} (h : evicted bounds call entries = [])
    (hnone : (entries.expire bounds call.now).get? call.key = none) :
    (entries.expire bounds call.now).size + 1 - bounds.maxEntries = 0 := by
  rw [evicted, if_pos hnone, List.take_eq_nil_iff, OrderedDict.keys, List.map_eq_nil_iff] at h
  rcases h with h | h
  · exact h
  · rw [OrderedDict.size, h, List.length_nil]
    exact Nat.sub_eq_zero_of_le bounds.maxEntries_pos

/-- A call of the transaction leaves the others alone when it evicts nobody. -/
theorem erase_addStep_self {call : AddCall} (h : evicted bounds call entries = []) :
    (entries.addStep bounds call).erase call.key =
      (entries.expire bounds call.now).erase call.key := by
  have herase : ((entries.expire bounds call.now).erase call.key).erase call.key =
      (entries.expire bounds call.now).erase call.key :=
    OrderedDict.filter_eq_self fun e he => (OrderedDict.mem_entries_filter.mp he).2
  rw [addStep, add, ← AddCall.key]
  split
  · next hnone =>
    rw [evicted_eq_nil h hnone, OrderedDict.dropFirst_zero, collect_erase_self]
  · split
    · exact herase
    · exact collect_erase_self

/-- A call of another transaction does the same in the table without the transaction. -/
theorem add_erase {call : AddCall} {entries' : Reassembler} (hne : call.key ≠ key)
    (h : evicted bounds call entries = [])
    (hrel : expire bounds call.now (entries.erase key) = entries'.expire bounds call.now) :
    entries'.add bounds call.peer call.fragment call.now =
      ((entries.add bounds call.peer call.fragment call.now).1,
        (entries.addStep bounds call).erase key) := by
  have hget : ((entries.expire bounds call.now).erase key).get? call.key =
      (entries.expire bounds call.now).get? call.key := OrderedDict.get?_erase_of_ne hne
  rw [expire_erase] at hrel
  rw [addStep, add, add, ← hrel, ← AddCall.key, hget]
  cases hcase : (entries.expire bounds call.now).get? call.key with
  | none =>
    have hroom := evicted_eq_nil h hcase
    have hroom' : ((entries.expire bounds call.now).erase key).size + 1 -
      bounds.maxEntries = 0 := by
      have hle := OrderedDict.size_filter_le (entries.expire bounds call.now) fun e =>
        decide (e.1 ≠ key)
      rw [← OrderedDict.erase] at hle
      omega
    rw [hroom, hroom', OrderedDict.dropFirst_zero, OrderedDict.dropFirst_zero]
    exact collect_erase_of_ne hne
  | some entry =>
    dsimp only
    split
    · exact congrArg _ (OrderedDict.filter_filter_comm _ _ _)
    · exact collect_erase_of_ne hne

/-- **The other transactions.** As long as nobody is evicted, their calls return what they return
without the calls of the transaction. -/
theorem results_others {calls : List AddCall} {entries' : Reassembler}
    (hclock : calls.Pairwise (·.now ≤ ·.now))
    (hrel : ∀ call ∈ calls, expire bounds call.now (entries.erase key) =
      entries'.expire bounds call.now)
    (hroom : ∀ i (hi : i < calls.length),
      evicted bounds calls[i] (stateAt (addStep bounds) entries calls i) = []) :
    ((calls.zip (results bounds entries calls)).filter (·.1.key ≠ key)).map Prod.snd =
      results bounds entries' (calls.filter (·.key ≠ key)) := by
  induction calls generalizing entries entries' with
  | nil => rfl
  | cons call calls ih =>
    obtain ⟨hlater, hclock'⟩ := List.pairwise_cons.mp hclock
    have hnow : evicted bounds call entries = [] := hroom 0 (Nat.succ_pos _)
    have hroom' : ∀ i (hi : i < calls.length),
        evicted bounds calls[i] (stateAt (addStep bounds) (entries.addStep bounds call) calls
          i) = [] :=
      fun i hi => hroom (i + 1) (Nat.succ_lt_succ hi)
    rw [results, List.zip_cons_cons]
    by_cases hkey : call.key = key
    · rw [List.filter_cons_of_neg (by simpa using hkey),
        List.filter_cons_of_neg (by simpa using hkey)]
      refine ih hclock' (fun next hnext => ?_) hroom'
      rw [← hrel next (List.mem_cons_of_mem _ hnext), ← hkey, erase_addStep_self hnow, expire_erase,
        expire_erase, expire_expire (hlater next hnext)]
    · rw [List.filter_cons_of_pos (by simpa using hkey),
        List.filter_cons_of_pos (by simpa using hkey)]
      have hadd := add_erase hkey hnow (hrel call List.mem_cons_self)
      have hstep : entries'.addStep bounds call = (entries.addStep bounds call).erase key :=
        congrArg Prod.snd hadd
      rw [results, List.map_cons, hstep, hadd]
      exact congrArg _ (ih hclock' (fun _ _ => rfl) hroom')

/-! ### Conflicts -/

/-- The assembly is of the same transaction as the fragment, and has its part. -/
structure Contains (entry : Assembly) (fragment : APRSFragment) : Prop where
  total : entry.total = fragment.total
  version : entry.version = fragment.version
  part : ∃ part, fragment.part = .ok part ∧ entry.parts.get? fragment.index = some part

/-- What is stored after a fragment has been collected has the fragment and all that was there. -/
theorem collect_contains {entry' : Assembly}
    (h : (collect key entry fragment now entries).2.get? key = some entry') :
    entry'.total = entry.total ∧ entry'.version = entry.version ∧
      (∃ part, fragment.part = .ok part ∧ entry'.parts.get? fragment.index = some part) ∧
      ∀ index part, entry.parts.get? index = some part → entry'.parts.get? index = some part := by
  rw [collect] at h
  cases hpart : fragment.part with
  | error e =>
    rw [hpart] at h
    exact absurd ((OrderedDict.get?_erase_self _ _).symm.trans h) (Option.some_ne_none _).symm
  | ok part =>
    rw [hpart] at h
    dsimp only at h
    split at h
    · exact absurd ((OrderedDict.get?_erase_self _ _).symm.trans h) (Option.some_ne_none _).symm
    · next hagree =>
      split at h
      · rw [OrderedDict.get?_moveToEnd, OrderedDict.get?_set_self] at h
        obtain rfl := Option.some.inj h
        refine ⟨rfl, rfl, ⟨part, rfl, OrderedDict.get?_set_self _ _ _⟩,
          fun index other hother => ?_⟩
        by_cases hindex : index = fragment.index
        · subst hindex
          rw [hother, Option.any_some, decide_eq_true_eq, not_not] at hagree
          rw [hagree]
          exact OrderedDict.get?_set_self _ _ _
        · exact (OrderedDict.get?_set_of_ne hindex).trans hother
      · exact absurd ((OrderedDict.get?_erase_self _ _).symm.trans h) (Option.some_ne_none _).symm

/-- An assembly that is in the table after a call of its transaction has the call's fragment. -/
theorem addStep_contains {call : AddCall} (h : (entries.addStep bounds call).get? call.key =
    some entry) :
    Contains entry call.fragment := by
  rw [addStep, add, ← AddCall.key] at h
  split at h
  · obtain ⟨htotal, hversion, hpart, -⟩ := collect_contains h
    exact ⟨htotal, hversion, hpart⟩
  · next before _ =>
    split at h
    · exact absurd ((OrderedDict.get?_erase_self _ _).symm.trans h) (Option.some_ne_none _).symm
    · next hsame =>
      rw [not_or, not_not, not_not] at hsame
      obtain ⟨htotal, hversion, hpart, -⟩ := collect_contains h
      exact ⟨htotal.trans hsame.1, hversion.trans hsame.2, hpart⟩

/-- An assembly that stays in the table keeps what it has. -/
theorem Contains.addStep {call : AddCall} {entry' : Assembly} (h : Contains entry fragment)
    (hbefore : (entries.expire bounds call.now).get? key = some entry)
    (hafter : (entries.addStep bounds call).get? key = some entry') : Contains entry' fragment := by
  rw [Reassembler.addStep, add, ← AddCall.key] at hafter
  by_cases hkey : key = call.key
  · subst hkey
    rw [hbefore] at hafter
    dsimp only at hafter
    split at hafter
    · exact absurd ((OrderedDict.get?_erase_self _ _).symm.trans hafter)
        (Option.some_ne_none _).symm
    · obtain ⟨htotal, hversion, -, hparts⟩ := collect_contains hafter
      obtain ⟨part, hpart, hget⟩ := h.part
      exact ⟨htotal.trans h.total, hversion.trans h.version, part, hpart, hparts _ _ hget⟩
  · have hsame : entry' = entry := by
      split at hafter
      · rw [get?_collect_of_ne hkey, OrderedDict.get?_eq_some_iff] at hafter
        have hmem := OrderedDict.get?_eq_some_iff.mpr (OrderedDict.mem_entries_of_dropFirst hafter)
        exact Option.some.inj (hmem.symm.trans hbefore)
      · split at hafter
        · rw [OrderedDict.get?_erase_of_ne hkey] at hafter
          exact Option.some.inj (hafter.symm.trans hbefore)
        · rw [get?_collect_of_ne hkey] at hafter
          exact Option.some.inj (hafter.symm.trans hbefore)
    rwa [hsame]

end Reassembler

/-- The fragments cannot be of the same frame. -/
def APRSFragment.Conflicts (fragment fragment' : APRSFragment) : Prop :=
  fragment.total ≠ fragment'.total ∨ fragment.version ≠ fragment'.version ∨
    fragment.index = fragment'.index ∧
      ∃ part part', fragment.part = .ok part ∧ fragment'.part = .ok part' ∧ part ≠ part'

namespace Reassembler

/-- A fragment that conflicts with one in the assembly is refused, and the assembly is dropped. -/
theorem add_conflict {call : AddCall} (h : Contains entry fragment)
    (hentry : (entries.expire bounds call.now).get? call.key = some entry)
    (hconflict : fragment.Conflicts call.fragment) :
    (∃ text, (entries.add bounds call.peer call.fragment call.now).1 =
      .error ⟨.transactionConflict, text⟩) ∧ (entries.addStep bounds call).get? call.key =
        none := by
  rw [addStep, add, ← AddCall.key, hentry]
  dsimp only
  split
  · exact ⟨⟨_, rfl⟩, OrderedDict.get?_erase_self _ _⟩
  · next hsame =>
    rw [not_or, not_not, not_not] at hsame
    rcases hconflict with htotal | hversion | ⟨hindex, part, part', hpart, hpart', hne⟩
    · exact absurd (h.total.symm.trans hsame.1) htotal
    · exact absurd (h.version.symm.trans hsame.2) hversion
    · obtain ⟨other, hother, hget⟩ := h.part
      obtain rfl := Except.ok.inj (hpart.symm.trans hother)
      rw [collect, hpart']
      dsimp only
      rw [if_pos]
      · exact ⟨⟨_, rfl⟩, OrderedDict.get?_erase_self _ _⟩
      · rw [← hindex, hget, Option.any_some, decide_eq_true_eq]
        exact hne

/-- The assembly is in the table whenever a call after `i`, up to `j`, looks. -/
def Stays (bounds : ReassemblyBounds) (entries : Reassembler) (calls : List AddCall)
    (key : TransactionKey) (i j : ℕ) : Prop :=
  ∀ m (hm : m < calls.length), i < m → m ≤ j →
    (expire bounds calls[m].now (stateAt (addStep bounds) entries calls m)).get? key ≠ none

theorem get?_of_get?_expire (h : (entries.expire bounds now).get? key = some entry) :
    entries.get? key = some entry := by
  rw [get?_expire, Option.filter_eq_some_iff] at h
  exact h.1

/-- The first fragment is in the assembly when a later call looks. -/
theorem Stays.contains {calls : List AddCall} {i j : ℕ} (h : Stays bounds entries calls key i j)
    (hi : i < calls.length) (hkey : calls[i].key = key) (hij : i < j) (hj : j < calls.length) :
    ∃ entry, (expire bounds calls[j].now (stateAt (addStep bounds) entries calls j)).get? key =
      some entry ∧ Contains entry calls[i].fragment := by
  induction hij with
  | refl =>
    obtain ⟨entry, hentry⟩ := Option.ne_none_iff_exists'.mp
      (h (i + 1) hj (Nat.lt_succ_self i) le_rfl)
    have hafter := get?_of_get?_expire hentry
    rw [stateAt_succ hi] at hafter
    exact ⟨entry, hentry, addStep_contains (hkey ▸ hafter)⟩
  | @step m hlt ih =>
    have hm : m < calls.length := Nat.lt_of_succ_lt hj
    obtain ⟨before, hbefore, hcontains⟩ :=
      ih (fun n hn hin hnm => h n hn hin (Nat.le_succ_of_le hnm)) hm
    obtain ⟨entry, hentry⟩ := Option.ne_none_iff_exists'.mp
      (h (m + 1) hj (Nat.lt_of_lt_of_le hlt (Nat.le_succ m)) le_rfl)
    have hafter := get?_of_get?_expire hentry
    rw [stateAt_succ hm] at hafter
    exact ⟨entry, hentry, hcontains.addStep hbefore hafter⟩

theorem getElem?_results {calls : List AddCall} {i : ℕ} (hi : i < calls.length) :
    (results bounds entries calls)[i]? = some
      (add bounds calls[i].peer calls[i].fragment calls[i].now
        (stateAt (addStep bounds) entries calls i)).1 := by
  induction calls generalizing entries i with
  | nil => exact absurd hi (Nat.not_lt_zero i)
  | cons call calls ih =>
    cases i with
    | zero => rfl
    | succ i => exact ih (Nat.lt_of_succ_lt_succ hi)

end Reassembler

end Transaction

/-! ### Carriage and reassembly -/

/-- The fragment is what a body of the frame's fragments is parsed to. -/
def Profile.Carried (profile : Profile) (frame : Bytes) (transactionId : Str)
    (fragment : APRSFragment) :
    Prop :=
  ∃ fragments, profile.fragmentFrame frame transactionId = .ok fragments ∧
    ∃ sent ∈ fragments, ∃ body, sent.body = .ok body ∧ parseFragment body = .ok fragment

open Reassembler in
/-- **Carriage and reassembly.** A frame that is decoded can be cut into fragments, under both
profiles and every transaction id of the profile. Whatever the order in which the fragments arrive,
however often and mixed with whatever others, as long as the assembly is neither left alone for too
long nor evicted, its calls return nothing until every index has occurred, then the frame, and so on
from the start. If nobody is evicted, the calls of the other transactions return what they return
without these calls. And in any run two fragments that do not fit together, and meet in one
assembly, make the second call raise `TransactionConflict` and drop the assembly. -/
theorem fragments_reassembled (bounds : ReassemblyBounds) (profile : Profile) (frame : Bytes)
    (decoded : ProtocolObject × UInt8) (hframe : decodeFrameWithFlags frame = .ok decoded)
    (peer transactionId : Str) (htransaction : profile.ValidTransaction transactionId)
    (entries : Reassembler) (hentries : entries.get? (peer, transactionId) = none)
    (calls : List AddCall) (hclock : calls.Pairwise (·.now ≤ ·.now))
    (hcalls : ∀ call ∈ calls, call.key = (peer, transactionId) →
      profile.Carried frame transactionId call.fragment)
    (hgaps : ((calls.filter (·.key = (peer, transactionId))).map (·.now)).IsChain
      fun earlier later => later - earlier < bounds.ttl)
    (hkept : ∀ i (hi : i < calls.length),
      (peer, transactionId) ∉ evicted bounds calls[i] (stateAt (addStep bounds) entries calls i)) :
    (∃ fragments, profile.fragmentFrame frame transactionId = .ok fragments ∧
      ((calls.zip (results bounds entries calls)).filter (·.1.key = (peer, transactionId))).map
        Prod.snd =
        (gather frame fragments.length ∅ ((calls.filter (·.key = (peer, transactionId))).map
          (·.fragment.index))).map .ok) ∧
    ((∀ i (hi : i < calls.length),
        evicted bounds calls[i] (stateAt (addStep bounds) entries calls i) = []) →
      ((calls.zip (results bounds entries calls)).filter (·.1.key ≠ (peer, transactionId))).map
        Prod.snd =
        results bounds entries (calls.filter (·.key ≠ (peer, transactionId)))) ∧
    ∀ (table : Reassembler) (run : List AddCall) (i j : ℕ) (hi : i < run.length) (hj : j < run.length),
      i < j → run[i].key = run[j].key → run[i].fragment.Conflicts run[j].fragment →
      Stays bounds table run run[j].key i j →
      (∃ text, (results bounds table run)[j]? = some (.error ⟨.transactionConflict, text⟩)) ∧
        (stateAt (addStep bounds) table run (j + 1)).get? run[j].key = none := by
  obtain ⟨fragments, hfragments, h⟩ := profile.fragmentFrame_ok hframe htransaction
  refine ⟨⟨fragments, hfragments, ?_⟩, fun hroom => ?_, ?_⟩
  · have hmem : ∀ call ∈ calls, call.key = (peer, transactionId) → call.fragment ∈ fragments := by
      intro call hcall hkey
      obtain ⟨fragments', hfragments', sent, hsent, body, hbody, hparse⟩ := hcalls call hcall hkey
      obtain rfl := Except.ok.inj (hfragments.symm.trans hfragments')
      obtain ⟨body', hbody', hparse'⟩ := h.body sent hsent
      obtain rfl := Except.ok.inj (hbody.symm.trans hbody')
      rwa [Except.ok.inj (hparse.symm.trans hparse')]
    obtain ⟨last, hlast⟩ : ∃ last : ℚ,
        (last :: (calls.filter (·.key = (peer, transactionId))).map (·.now)).IsChain
          fun earlier later => later - earlier < bounds.ttl := by
      cases htimes : (calls.filter (·.key = (peer, transactionId))).map (·.now) with
      | nil => exact ⟨0, .singleton _⟩
      | cons first rest =>
        refine ⟨first, List.isChain_cons_cons.mpr ⟨?_, htimes ▸ hgaps⟩⟩
        rw [sub_self]
        exact bounds.ttl_pos
    exact results_key h (.inl ⟨rfl, hentries⟩) hmem hclock hlast hkept
  · refine results_others hclock (fun call _ => ?_) hroom
    have herase : entries.erase (peer, transactionId) = entries := by
      refine OrderedDict.filter_eq_self fun e he => decide_eq_true fun hkey => ?_
      exact OrderedDict.get?_eq_none_iff.mp hentries (hkey ▸ List.mem_map_of_mem he)
    rw [herase]
  · intro table run i j hi hj hij hkey hconflict hstays
    obtain ⟨entry, hentry, hcontains⟩ := hstays.contains hi hkey hij hj
    obtain ⟨⟨text, herror⟩, hdropped⟩ := add_conflict hcontains hentry hconflict
    rw [getElem?_results hj, herror, stateAt_succ hj]
    exact ⟨⟨text, rfl⟩, hdropped⟩

/-- A `SEND_MESSAGE` of two fragments. -/
def longFrame : Bytes :=
  [1, 1, 0, 61, 101, 83, 241, 0, 5, 75, 49, 88, 89, 90, 50] ++ List.replicate 50 120

def longFragment (index : ℕ) : APRSFragment :=
  ⟨str "005", index, 2, base91Encode ((longFrame.drop (50 * index)).take 50), none, 2,
    some ((longFrame.drop (50 * index)).take 50)⟩

/-- A fragment of `GET_CAPABILITIES` under another transaction. -/
def otherFragment (transactionId : String) (index : ℕ) (data : String) : APRSFragment :=
  ⟨str transactionId, index, 2, str data, none, 1, none⟩

theorem longFrame_decoded : decodeFrameWithFlags longFrame =
    .ok (.sendMessage ⟨1700000000, str "K1XYZ", ofAscii (List.replicate 50 120)⟩, 0) := by
      decide +kernel

theorem longFrame_fragments : Profile.q2.fragmentFrame longFrame (str "005") =
    .ok [longFragment 0, longFragment 1] := by decide +kernel

theorem longFragment_carried {index : ℕ} (h : index < 2) :
    Profile.q2.Carried longFrame (str "005") (longFragment index) := by
  have hvalid : Profile.q2.ValidTransaction (str "005") := ⟨5, by decide +kernel, by decide⟩
  obtain ⟨fragments, hfragments, hfragmentation⟩ :=
    Profile.q2.fragmentFrame_ok longFrame_decoded hvalid
  obtain rfl := Except.ok.inj (longFrame_fragments.symm.trans hfragments)
  have hmem : longFragment index ∈ [longFragment 0, longFragment 1] := by
    obtain rfl | rfl : index = 0 ∨ index = 1 := by omega
    · exact List.mem_cons_self
    · exact List.mem_cons_of_mem _ List.mem_cons_self
  exact ⟨_, hfragments, _, hmem, hfragmentation.body _ hmem⟩

/-- The fragments in reverse order, one of them twice, and one of another transaction in between. -/
def mixedCalls : List AddCall :=
  [⟨str "EA1ABC", longFragment 1, 0⟩, ⟨str "EA1ABC", otherFragment "00B" 0 "AQU", 50⟩,
    ⟨str "EA1ABC", longFragment 1, 100⟩, ⟨str "EA1ABC", longFragment 0, 200⟩]

theorem smallBounds_ttl : (0 : ℚ) < 120 := by decide

def smallBounds : ReassemblyBounds := ⟨120, 2, smallBounds_ttl, Nat.two_pos⟩

theorem fragments_reassembled_mixed :
    ((mixedCalls.zip (Reassembler.results smallBounds .empty mixedCalls)).filter
      (·.1.key = (str "EA1ABC", str "005"))).map Prod.snd =
      [.ok none, .ok none, .ok (some longFrame)] := by
  have hcalls : ∀ call ∈ mixedCalls, call.key = (str "EA1ABC", str "005") →
      Profile.q2.Carried longFrame (str "005") call.fragment := by
    intro call hcall hkey
    simp only [mixedCalls, List.mem_cons, List.not_mem_nil, or_false] at hcall
    rcases hcall with rfl | rfl | rfl | rfl
    · exact longFragment_carried (by decide)
    · exact absurd hkey (by decide)
    · exact longFragment_carried (by decide)
    · exact longFragment_carried (by decide)
  have hkept : ∀ i : Fin mixedCalls.length, (str "EA1ABC", str "005") ∉
      Reassembler.evicted smallBounds mixedCalls[i.1]
        (stateAt (Reassembler.addStep smallBounds) .empty mixedCalls i) := by decide +kernel
  obtain ⟨⟨fragments, hfragments, hresults⟩, -⟩ := fragments_reassembled smallBounds .q2 longFrame _
    longFrame_decoded (str "EA1ABC") (str "005") ⟨5, by decide +kernel, by decide⟩ .empty rfl
      mixedCalls
    (by decide +kernel) hcalls (by decide +kernel) fun i hi => hkept ⟨i, hi⟩
  obtain rfl := Except.ok.inj (longFrame_fragments.symm.trans hfragments)
  rw [hresults]
  decide +kernel

/-- Two other transactions have begun when the first fragment of the frame arrives, and the table
has room for two. -/
def crowdedCalls : List AddCall :=
  [⟨str "EA1ABC", otherFragment "00B" 0 "AQU", 0⟩, ⟨str "EA1ABC", otherFragment "00C" 0 "AQU", 0⟩,
    ⟨str "EA1ABC", longFragment 0, 0⟩, ⟨str "EA1ABC", otherFragment "00B" 1 "AAA", 0⟩]

open Reassembler in
/-- The other transactions do notice the calls when the table is full: the older one of them gives
way, and its last fragment does not complete it any more. -/
theorem fragments_evictOthers : ¬∀ (bounds : ReassemblyBounds) (profile : Profile) (frame : Bytes)
    (decoded : ProtocolObject × UInt8), decodeFrameWithFlags frame = .ok decoded →
    ∀ peer transactionId : Str, profile.ValidTransaction transactionId → ∀ calls : List AddCall,
    calls.Pairwise (·.now ≤ ·.now) →
    (∀ call ∈ calls, call.key = (peer, transactionId) →
      profile.Carried frame transactionId call.fragment) →
    ((calls.filter (·.key = (peer, transactionId))).map (·.now)).IsChain
      (fun earlier later => later - earlier < bounds.ttl) →
    (∀ i (hi : i < calls.length),
      (peer, transactionId) ∉ evicted bounds calls[i] (stateAt (addStep bounds) .empty calls i)) →
    ((calls.zip (results bounds .empty calls)).filter (·.1.key ≠ (peer, transactionId))).map
      Prod.snd =
      results bounds .empty (calls.filter (·.key ≠ (peer, transactionId))) := by
  intro h
  have hcalls : ∀ call ∈ crowdedCalls, call.key = (str "EA1ABC", str "005") →
      Profile.q2.Carried longFrame (str "005") call.fragment := by
    intro call hcall hkey
    simp only [crowdedCalls, List.mem_cons, List.not_mem_nil, or_false] at hcall
    rcases hcall with rfl | rfl | rfl | rfl
    · exact absurd hkey (by decide)
    · exact absurd hkey (by decide)
    · exact longFragment_carried (by decide)
    · exact absurd hkey (by decide)
  have hkept : ∀ i : Fin crowdedCalls.length, (str "EA1ABC", str "005") ∉
      evicted smallBounds crowdedCalls[i.1] (stateAt (addStep smallBounds) .empty crowdedCalls
        i) := by
    decide +kernel
  have hothers := h smallBounds .q2 longFrame _ longFrame_decoded (str "EA1ABC") (str "005")
    ⟨5, by decide +kernel, by decide⟩ crowdedCalls (by decide +kernel) hcalls (by decide +kernel)
    fun i hi => hkept ⟨i, hi⟩
  exact absurd hothers (by decide +kernel)

end OpenQSP
