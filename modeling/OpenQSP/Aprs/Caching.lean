import Mathlib.Tactic.Linarith
import OpenQSP.Aprs.State
import OpenQSP.Lib.Runs

/-!
# What the replay cache remembers

A result stays in the replay cache until it is too old, or until so many other transactions of its
peer, or of all peers, were used after its own last use that it has to give way. This is shown for
every run of calls on one cache; what the adapter makes of it is in `Aprs.AtMostOnce`.

## Main definitions

* `ReplayCache.Remembers`, `Crowded` — the two sides of the recency argument
* `ReplayCache.Bounded` — the cache is not larger than it may be
* `CacheCall`, `cacheAt`, `TouchedAt`, `LastPut` — the runs of a cache
* `CacheServes` — what a cache promises at each call of a run

## Main results

* `ReplayCache.Remembers.expire`, `get`, `evict`, `put` — what each operation leaves of it
* `cacheAt_bounded`, `lastPut_of_mem`, `recentAt_or_crowdedAt` — the invariants of a run
* **`replayCache_serves`** — every run keeps the promises
-/

namespace OpenQSP

namespace ReplayCache

section Contents

variable {bounds : ReplayBounds} {key : TransactionKey} {now : ℚ} {entries : ReplayCache}

theorem mem_of_get {e : TransactionKey × Replay}
    (h : e ∈ (entries.get bounds key now).2.entries) : e ∈ entries.entries :=
  (mem_expire.mp (OrderedDict.mem_entries_moveToEnd.mp h)).1

/-- What a look-up finds is in the cache, and it is young. -/
theorem get_eq_some {value : Replay} (h : (entries.get bounds key now).1 = some value) :
    (key, value) ∈ entries.entries ∧ now - value.createdAt < bounds.ttl :=
  mem_expire.mp (OrderedDict.get?_eq_some_iff.mp h)

/-- A new entry displaces others and changes none. -/
theorem mem_of_put {value : Replay} {e : TransactionKey × Replay}
    (h : e ∈ (entries.put bounds key value).entries) :
    e = (key, value) ∨ (e ∈ entries.entries ∧ e.1 ≠ key) := by
  have h := OrderedDict.mem_entries_of_dropFirst h
  have h := (OrderedDict.mem_entries_filter.mp h).1
  exact OrderedDict.mem_entries_set.mp (OrderedDict.mem_entries_moveToEnd.mp h)

end Contents

/-! ### Recency -/

section Recency

variable (bounds : ReplayBounds) {key key' : TransactionKey} {now since : ℚ}
  {entries : ReplayCache} {K : Finset TransactionKey} {value : Replay}

/-- The result of `key` is in the cache, it is not older than `since`, and all younger entries are
of transactions in `K`. -/
def Remembers (entries : ReplayCache) (key : TransactionKey) (since : ℚ)
    (K : Finset TransactionKey) : Prop :=
  ∃ value, entries.get? key = some value ∧ since ≤ value.createdAt ∧ entries.YoungerIn key K

/-- Enough transactions to make `key` give way: of its peer, or of all peers. -/
def Crowded (bounds : ReplayBounds) (key : TransactionKey) (K : Finset TransactionKey) : Prop :=
  bounds.maxPerPeer ≤ ((K.erase key).filter fun k => k.1 = key.1).card ∨
    bounds.maxEntries ≤ (K.erase key).card

theorem Remembers.expire (h : entries.Remembers key since K) (hnow : now < since + bounds.ttl) :
    (entries.expire bounds now).Remembers key since K := by
  obtain ⟨value, hvalue, hsince, hyounger⟩ := h
  have hkept : decide (¬bounds.ttl ≤ now - value.createdAt) = true := by
    rw [decide_eq_true_eq, not_le]
    linarith
  refine ⟨value, ?_, hsince, hyounger.filter hvalue hkept⟩
  rw [ReplayCache.expire, OrderedDict.get?_filter, hvalue, Option.filter_some, if_pos hkept]

/-- A remembered transaction is found, and is the youngest one then. -/
theorem Remembers.get_self (h : entries.Remembers key since K) (hnow : now < since + bounds.ttl) :
    (entries.get bounds key now).1 ≠ none ∧
      (entries.get bounds key now).2.Remembers key since ∅ := by
  obtain ⟨value, hvalue, hsince, -⟩ := h.expire bounds hnow
  refine ⟨?_, value, ?_, hsince, OrderedDict.YoungerIn.moveToEnd_self hvalue⟩
  · rw [ReplayCache.get, hvalue]
    exact Option.some_ne_none value
  · rw [ReplayCache.get, OrderedDict.get?_moveToEnd, hvalue]

/-- Looking up another transaction makes that one younger, if it is there. -/
theorem Remembers.get (h : entries.Remembers key since K) (hnow : now < since + bounds.ttl)
    (hne : key' ≠ key) :
    (entries.get bounds key' now).2.Remembers key since (insert key' K) ∧
      ((entries.get bounds key' now).1 = none →
        (entries.get bounds key' now).2.Remembers key since K) := by
  obtain ⟨value, hvalue, hsince, hyounger⟩ := h.expire bounds hnow
  constructor
  · refine ⟨value, ?_, hsince, hyounger.moveToEnd hne⟩
    rw [ReplayCache.get, OrderedDict.get?_moveToEnd, hvalue]
  · intro hmiss
    have habsent : key' ∉ (entries.expire bounds now).keys := OrderedDict.get?_eq_none_iff.mp hmiss
    rw [ReplayCache.get, OrderedDict.moveToEnd_of_notMem habsent]
    exact ⟨value, hvalue, hsince, hyounger⟩

/-- A remembered transaction does not give way, unless there are enough younger ones. -/
theorem Remembers.evict (h : entries.Remembers key since K) (peer : Str) :
    (entries.evict bounds peer).Remembers key since K ∨ Crowded bounds key K := by
  obtain ⟨value, hvalue, hsince, hyounger⟩ := h
  by_cases hstale : key ∈ entries.stale bounds peer
  · -- Its peer has too many entries.
    refine .inr (.inl ?_)
    have hpeer : key.1 = peer :=
      of_decide_eq_true (List.mem_filter.mp (List.mem_of_mem_take hstale)).2
    have hcard := hyounger.card_le_of_mem_take hstale
    have hpos := List.length_pos_of_mem hstale
    rw [stale, List.length_take] at hpos
    simp only [decide_eq_true_eq, hpeer] at hcard ⊢
    omega
  have hkept : decide (key ∉ entries.stale bounds peer) = true := decide_eq_true hstale
  have hyounger₁ := hyounger.filter (p := fun e => decide (e.1 ∉ entries.stale bounds peer)) hvalue
    hkept
  have hvalue₁ : (entries.filter fun e => decide (e.1 ∉ entries.stale bounds peer)).get? key =
      some value := by
    rw [OrderedDict.get?_filter, hvalue, Option.filter_some, if_pos hkept]
  rw [ReplayCache.evict]
  generalize (entries.filter fun e => decide (e.1 ∉ entries.stale bounds peer)) = entries₁
    at hyounger₁ hvalue₁
  rcases hyounger₁.dropFirst (entries₁.size - bounds.maxEntries) with hyounger₂ | hdropped
  · refine .inl ⟨value, ?_, hsince, hyounger₂⟩
    obtain ⟨value₂, hvalue₂⟩ := OrderedDict.mem_keys_iff.mp hyounger₂.mem_keys
    have hmem := OrderedDict.mem_entries_of_dropFirst (OrderedDict.get?_eq_some_iff.mp hvalue₂)
    rw [hvalue₂, ← hvalue₁, OrderedDict.get?_eq_some_iff.mpr hmem]
  · -- There are too many entries.
    refine .inr (.inr ?_)
    have hpos := List.length_pos_of_mem hdropped
    have hlen : entries₁.keys.length = entries₁.size := List.length_map _
    rw [List.length_take, hlen] at hpos
    have hall : entries₁.keys.filter (fun _ => true) = entries₁.keys := List.filter_true _
    have hcard := hyounger₁.card_le_of_mem_take (g := fun _ => true) (hall.symm ▸ hdropped)
    rw [hall, hlen, Finset.filter_true_of_mem fun _ _ => rfl] at hcard
    omega

/-- A new entry keeps a remembered one, unless there are enough younger ones. -/
theorem Remembers.put (h : entries.Remembers key since K) (hne : key' ≠ key) (value' : Replay) :
    (entries.put bounds key' value').Remembers key since (insert key' K) ∨
      Crowded bounds key (insert key' K) := by
  obtain ⟨value, hvalue, hsince, hyounger⟩ := h
  refine Remembers.evict bounds ⟨value, ?_, hsince, ?_⟩ key'.1
  · rw [OrderedDict.get?_moveToEnd, OrderedDict.get?_set_of_ne hne.symm, hvalue]
  · have h := (hyounger.set hne value').moveToEnd hne
    rwa [Finset.insert_idem] at h

/-- A new entry is remembered. -/
theorem put_self (key : TransactionKey) (value : Replay)
    (entries : ReplayCache) :
    (entries.put bounds key value).Remembers key value.createdAt ∅ := by
  have hvalue := OrderedDict.get?_set_self entries key value
  have h : Remembers ((entries.set key value).moveToEnd key) key value.createdAt ∅ :=
    ⟨value, by rw [OrderedDict.get?_moveToEnd, hvalue], le_rfl,
      OrderedDict.YoungerIn.moveToEnd_self hvalue⟩
  rcases h.evict bounds key.1 with h | h | h
  · exact h
  · exact absurd h (Nat.not_le.mpr bounds.maxPerPeer_pos)
  · exact absurd h (Nat.not_le.mpr bounds.maxEntries_pos)

/-- A found entry becomes the youngest one. -/
theorem get_hit (h : (entries.get bounds key now).1 = some value) :
    (entries.get bounds key now).2.Remembers key value.createdAt ∅ := by
  refine ⟨value, ?_, le_rfl, OrderedDict.YoungerIn.moveToEnd_self h⟩
  rw [ReplayCache.get, OrderedDict.get?_moveToEnd]
  exact h

/-- The entry just put is the one that is found. -/
theorem get?_put_self (key : TransactionKey) (value : Replay) (entries : ReplayCache) :
    (entries.put bounds key value).get? key = some value := by
  obtain ⟨found, hfound, -⟩ := put_self bounds key value entries
  rcases mem_of_put (OrderedDict.get?_eq_some_iff.mp hfound) with heq | ⟨-, hne⟩
  · rw [hfound, (Prod.mk.inj heq).2]
  · exact absurd rfl hne

end Recency

/-! ### The bounds -/

section Bounded

/-- The transactions of a peer in the cache, oldest first. -/
def peerKeys (peer : Str) (entries : ReplayCache) : List TransactionKey :=
  entries.keys.filter fun k => k.1 = peer

/-- The cache is not larger than its bounds allow. -/
structure Bounded (bounds : ReplayBounds) (entries : ReplayCache) : Prop where
  size_le : entries.size ≤ bounds.maxEntries
  peer_le : ∀ peer, (entries.peerKeys peer).length ≤ bounds.maxPerPeer

variable {bounds : ReplayBounds} {key : TransactionKey} {now : ℚ} {entries entries' : ReplayCache}

theorem Bounded.of_sublist (h : entries.Bounded bounds)
    (hsub : entries'.entries.Sublist entries.entries) : entries'.Bounded bounds where
  size_le := Nat.le_trans hsub.length_le h.size_le
  peer_le peer := Nat.le_trans ((hsub.map Prod.fst).filter _).length_le (h.peer_le peer)

theorem Bounded.expire (h : entries.Bounded bounds) : (entries.expire bounds now).Bounded bounds :=
  h.of_sublist List.filter_sublist

theorem Bounded.moveToEnd (h : entries.Bounded bounds) (key : TransactionKey) :
    Bounded bounds (OrderedDict.moveToEnd entries key) where
  size_le := by
    rw [OrderedDict.size_moveToEnd]
    exact h.size_le
  peer_le peer := by
    have hperm := (OrderedDict.keys_moveToEnd_perm entries key).filter fun k => decide (k.1 = peer)
    rw [peerKeys, hperm.length_eq]
    exact h.peer_le peer

theorem Bounded.get (h : entries.Bounded bounds) : (entries.get bounds key now).2.Bounded bounds :=
  h.expire.moveToEnd key

/-- Without its oldest transactions, a peer has no more than its share. -/
theorem length_filter_stale_le (bounds : ReplayBounds) (peer : Str) (entries : ReplayCache) :
    (peerKeys peer (entries.filter fun e => e.1 ∉ entries.stale bounds peer)).length ≤
      bounds.maxPerPeer := by
  have hkeys : peerKeys peer (entries.filter fun e => e.1 ∉ entries.stale bounds peer) =
      (entries.peerKeys peer).filter fun k => k ∉ entries.stale bounds peer := by
    rw [peerKeys, peerKeys, List.filter_comm]
    refine congrArg _ ?_
    simp only [OrderedDict.keys, OrderedDict.filter, List.filter_map]
    rfl
  rw [hkeys]
  have hnodup : (entries.peerKeys peer).Nodup := entries.nodup_keys.filter _
  set n := (entries.peerKeys peer).length - bounds.maxPerPeer with hn
  have hstale : entries.stale bounds peer = (entries.peerKeys peer).take n := rfl
  have hsplit : ((entries.peerKeys peer).filter fun k => k ∉ entries.stale bounds peer).Sublist
      ((entries.peerKeys peer).drop n) := by
    conv_lhs => rw [← List.take_append_drop n (entries.peerKeys peer)]
    rw [List.filter_append, List.filter_eq_nil_iff.mpr, List.nil_append]
    · exact List.filter_sublist
    · intro k hk
      rw [hstale]
      simpa using hk
  have hlen := hsplit.length_le
  rw [List.length_drop] at hlen
  omega

theorem Bounded.put (h : entries.Bounded bounds) (key : TransactionKey) (value : Replay) :
    (entries.put bounds key value).Bounded bounds where
  size_le := by
    rw [ReplayCache.put, evict, OrderedDict.size_dropFirst]
    omega
  peer_le peer := by
    have hdrop : ∀ {e : ReplayCache} {n : ℕ}, (peerKeys peer (e.dropFirst n)).length ≤
        (e.peerKeys peer).length := fun {e n} =>
      (((List.drop_sublist n e.entries).map Prod.fst).filter _).length_le
    refine Nat.le_trans hdrop ?_
    rcases eq_or_ne peer key.1 with rfl | hne
    · exact length_filter_stale_le bounds key.1 _
    · -- No transaction of another peer is new.
      refine Nat.le_trans (List.filter_sublist.map Prod.fst |>.filter _).length_le ?_
      have hperm := (OrderedDict.keys_moveToEnd_perm (entries.set key value) key).filter
        fun k => decide (k.1 = peer)
      have hset : (entries.set key value).keys.filter (fun k => decide (k.1 = peer)) =
          entries.peerKeys peer := by
        rw [OrderedDict.keys_set, peerKeys]
        split
        · rfl
        · rw [List.filter_append, List.filter_cons_of_neg (by simpa using hne.symm),
            List.filter_nil, List.append_nil]
      exact Nat.le_trans (hset ▸ hperm.length_eq).le (h.peer_le peer)

end Bounded

end ReplayCache

/-! ### Runs -/

/-- A call on a replay cache. -/
inductive CacheCall
  | put (key : TransactionKey) (request : Bytes) (responses : List Bytes) (now : ℚ)
  | get (key : TransactionKey) (now : ℚ)
  | expire (now : ℚ)
  deriving DecidableEq

namespace CacheCall

def time : CacheCall → ℚ
  | put _ _ _ now => now
  | get _ now => now
  | expire now => now

/-- What a call makes of the cache. -/
def step (bounds : ReplayBounds) (entries : ReplayCache) : CacheCall → ReplayCache
  | put key request responses now => entries.put bounds key ⟨request, responses, now⟩
  | get key now => (entries.get bounds key now).2
  | expire now => entries.expire bounds now

/-- The call puts the transaction, or finds it. -/
def Touches (bounds : ReplayBounds) (entries : ReplayCache) (key : TransactionKey) :
    CacheCall → Prop
  | put key' _ _ _ => key' = key
  | get key' now => key' = key ∧ (entries.get bounds key now).1 ≠ none
  | expire _ => False

end CacheCall

section Runs

variable (bounds : ReplayBounds) (calls : List CacheCall)

/-- The cache after the first `i` calls. -/
def cacheAt (i : ℕ) : ReplayCache := stateAt (CacheCall.step bounds) .empty calls i

/-- Call `n` puts the entry. -/
def PutAt (key : TransactionKey) (value : Replay) (n : ℕ) : Prop :=
  calls[n]? = some (.put key value.request value.responses value.createdAt)

/-- Call `n` puts the transaction. -/
def PutsAt (key : TransactionKey) (n : ℕ) : Prop := ∃ value, PutAt calls key value n

/-- Call `n` puts the transaction, or finds it. -/
def TouchedAt (key : TransactionKey) (n : ℕ) : Prop :=
  ∃ h : n < calls.length, calls[n].Touches bounds (cacheAt bounds calls n) key

/-- `value` is what was put last before call `i`, at call `j`. -/
def LastPut (key : TransactionKey) (value : Replay) (i j : ℕ) : Prop :=
  LastBefore (PutsAt calls key) i j ∧ PutAt calls key value j

/-- Enough other transactions were used, since the last use of the transaction before call `i`, to
make it give way. -/
def CrowdedAt (key : TransactionKey) (i : ℕ) : Prop :=
  ∃ k, LastBefore (TouchedAt bounds calls key) i k ∧
    ∃ K : Finset TransactionKey, ReplayCache.Crowded bounds key K ∧
      ∀ key' ∈ K, ∃ n, k < n ∧ n < i ∧ TouchedAt bounds calls key' n

/-- The transaction is in the cache, and everything younger was used after its last use. -/
def RecentAt (key : TransactionKey) (since : ℚ) (i : ℕ) : Prop :=
  ∃ k, LastBefore (TouchedAt bounds calls key) i k ∧
    ∃ K : Finset TransactionKey, (cacheAt bounds calls i).Remembers key since K ∧
      ∀ key' ∈ K, ∃ n, k < n ∧ n < i ∧ TouchedAt bounds calls key' n

variable {bounds calls} {key : TransactionKey} {value value' : Replay} {i j : ℕ}

theorem cacheAt_succ (h : i < calls.length) :
    cacheAt bounds calls (i + 1) = calls[i].step bounds (cacheAt bounds calls i) :=
  stateAt_succ h

theorem LastPut.unique (h : LastPut calls key value i j) {j' : ℕ}
    (h' : LastPut calls key value' i j') : value = value' := by
  obtain rfl := h.1.unique h'.1
  have heq := Option.some.inj (h.2.symm.trans h'.2)
  simp only [CacheCall.put.injEq] at heq
  obtain ⟨-, hrequest, hresponses, hcreated⟩ := heq
  cases value
  cases value'
  simp_all

/-- In every run the cache is within its bounds. -/
theorem cacheAt_bounded : ∀ i ≤ calls.length, (cacheAt bounds calls i).Bounded bounds := by
  refine stateAt_invariant (I := fun e : ReplayCache => e.Bounded bounds)
    ⟨Nat.zero_le _, fun _ => Nat.zero_le _⟩ fun i hi h => ?_
  cases hcall : calls[i] with
  | put key request responses now => exact h.put key _
  | get key now => exact h.get
  | expire now => exact h.expire

/-- In every run each entry is the one put last. -/
theorem lastPut_of_mem (hi : i ≤ calls.length)
    (h : (key, value) ∈ (cacheAt bounds calls i).entries) : ∃ j, LastPut calls key value i j := by
  induction i with
  | zero => exact absurd h List.not_mem_nil
  | succ i ih =>
    have hget := List.getElem?_eq_getElem hi
    have hold : (key, value) ∈ (cacheAt bounds calls i).entries → ¬PutsAt calls key i →
        ∃ j, LastPut calls key value (i + 1) j := by
      intro hmem hnot
      obtain ⟨j, hlast, hput⟩ := ih (Nat.le_of_succ_le hi) hmem
      exact ⟨j, hlast.later hnot, hput⟩
    rw [cacheAt_succ hi] at h
    cases hcall : calls[i] with
    | put key' request responses now =>
      rw [hcall] at h hget
      rcases ReplayCache.mem_of_put h with heq | ⟨hmem, hne⟩
      · obtain ⟨rfl, rfl⟩ := Prod.mk.inj heq
        exact ⟨i, .now ⟨⟨request, responses, now⟩, hget⟩, hget⟩
      · refine hold hmem fun ⟨value', hput⟩ => hne ?_
        exact (CacheCall.put.inj (Option.some.inj (hput.symm.trans hget))).1
    | get key' now =>
      rw [hcall] at h hget
      exact hold (ReplayCache.mem_of_get h) fun ⟨value', hput⟩ =>
        CacheCall.noConfusion (Option.some.inj (hput.symm.trans hget))
    | expire now =>
      rw [hcall] at h hget
      exact hold (ReplayCache.mem_expire.mp h).1 fun ⟨value', hput⟩ =>
        CacheCall.noConfusion (Option.some.inj (hput.symm.trans hget))

theorem PutAt.touchedAt (h : PutAt calls key value i) : TouchedAt bounds calls key i := by
  obtain ⟨hi, hcall⟩ := List.getElem?_eq_some_iff.mp h
  exact ⟨hi, by rw [hcall]; exact rfl⟩

/-- What one call makes of a transaction that is recent. -/
theorem recentAt_succ (hlast : LastPut calls key value i j) (hi : i < calls.length)
    (hfresh : calls[i].time < value.createdAt + bounds.ttl) (hnot : ¬PutsAt calls key i)
    (h : RecentAt bounds calls key value.createdAt i ∨ CrowdedAt bounds calls key i) :
    RecentAt bounds calls key value.createdAt (i + 1) ∨ CrowdedAt bounds calls key (i + 1) := by
  by_cases htouched : TouchedAt bounds calls key i
  · -- It is found, and the youngest one then.
    refine .inl ⟨i, .now htouched, ∅, ?_, fun _ hmem => absurd hmem (Finset.notMem_empty _)⟩
    obtain ⟨_, htouches⟩ := htouched
    rw [cacheAt_succ hi]
    cases hcall : calls[i] with
    | put key' request responses now =>
      rw [hcall] at htouches
      obtain rfl : key' = key := htouches
      exact absurd ⟨⟨request, responses, now⟩, List.getElem?_eq_some_iff.mpr ⟨hi, hcall⟩⟩ hnot
    | get key' now =>
      rw [hcall] at htouches
      obtain ⟨rfl, hhit⟩ := htouches
      obtain ⟨found, hfound⟩ := Option.ne_none_iff_exists'.mp hhit
      have hmem := (ReplayCache.get_eq_some hfound).1
      obtain ⟨j', hlast'⟩ := lastPut_of_mem hi.le hmem
      exact hlast'.unique hlast ▸ ReplayCache.get_hit bounds hfound
    | expire now =>
      rw [hcall] at htouches
      exact htouches.elim
  · have hlater : ∀ {k : ℕ} {K : Finset TransactionKey},
        (∀ key' ∈ K, ∃ n, k < n ∧ n < i ∧ TouchedAt bounds calls key' n) →
        ∀ key' ∈ K, ∃ n, k < n ∧ n < i + 1 ∧ TouchedAt bounds calls key' n :=
      fun hK key' hmem => (hK key' hmem).imp fun n hn => ⟨hn.1, Nat.lt_succ_of_lt hn.2.1, hn.2.2⟩
    rcases h with ⟨k, hk, K, hremembers, hK⟩ | ⟨k, hk, K, hcrowded, hK⟩
    · have hinsert : ∀ {key' : TransactionKey}, TouchedAt bounds calls key' i →
          ∀ key'' ∈ insert key' K, ∃ n, k < n ∧ n < i + 1 ∧ TouchedAt bounds calls key'' n := by
        intro key' hkey' key'' hmem
        rcases Finset.mem_insert.mp hmem with rfl | hmem
        · exact ⟨i, hk.before, Nat.lt_succ_self i, hkey'⟩
        · exact hlater hK key'' hmem
      have hcache : cacheAt bounds calls (i + 1) = calls[i].step bounds (cacheAt bounds calls i) :=
        cacheAt_succ hi
      cases hcall : calls[i] with
      | put key' request responses now =>
        rw [hcall] at hcache hfresh
        have hput : PutAt calls key' ⟨request, responses, now⟩ i :=
          List.getElem?_eq_some_iff.mpr ⟨hi, hcall⟩
        have hne : key' ≠ key := by
          rintro rfl
          exact hnot ⟨_, hput⟩
        rcases hremembers.put bounds hne ⟨request, responses, now⟩ with hkept | hcrowded
        · exact .inl ⟨k, hk.later htouched, insert key' K, hcache ▸ hkept, hinsert hput.touchedAt⟩
        · exact .inr ⟨k, hk.later htouched, insert key' K, hcrowded, hinsert hput.touchedAt⟩
      | get key' now =>
        rw [hcall] at hcache hfresh
        have htouches : ∀ key'', TouchedAt bounds calls key'' i ↔ key' = key'' ∧
            (ReplayCache.get bounds key'' now (cacheAt bounds calls i)).1 ≠ none := fun key'' =>
          ⟨fun ⟨_, h⟩ => by rwa [hcall] at h, fun h => ⟨hi, by rwa [hcall]⟩⟩
        have hne : key' ≠ key := by
          rintro rfl
          exact htouched ((htouches key').mpr ⟨rfl, (hremembers.get_self bounds hfresh).1⟩)
        obtain ⟨hhit, hmiss⟩ := hremembers.get bounds hfresh hne
        by_cases hfound : (ReplayCache.get bounds key' now (cacheAt bounds calls i)).1 = none
        · exact .inl ⟨k, hk.later htouched, K, hcache ▸ hmiss hfound, hlater hK⟩
        · exact .inl ⟨k, hk.later htouched, insert key' K, hcache ▸ hhit,
            hinsert ((htouches key').mpr ⟨rfl, hfound⟩)⟩
      | expire now =>
        rw [hcall] at hcache hfresh
        exact .inl ⟨k, hk.later htouched, K, hcache ▸ hremembers.expire bounds hfresh, hlater hK⟩
    · exact .inr ⟨k, hk.later htouched, K, hcrowded, hlater hK⟩

/-- What was put last stays until it expires or is crowded out. -/
theorem recentAt_or_crowdedAt (hlast : LastPut calls key value i j) (hi : i ≤ calls.length)
    (hfresh : ∀ m (hm : m < calls.length), j < m → m < i →
      calls[m].time < value.createdAt + bounds.ttl) :
    RecentAt bounds calls key value.createdAt i ∨ CrowdedAt bounds calls key i := by
  induction i with
  | zero => exact absurd hlast.1.before (Nat.not_lt_zero j)
  | succ i ih =>
    rcases hlast.1.of_succ with ⟨hputs, rfl⟩ | ⟨hbefore, hnot⟩
    · -- It has just been put.
      have hput := hlast.2
      obtain ⟨hlt, hcall⟩ := List.getElem?_eq_some_iff.mp hput
      refine .inl ⟨j, .now hput.touchedAt, ∅, ?_, fun _ hmem =>
        absurd hmem (Finset.notMem_empty _)⟩
      rw [cacheAt_succ hlt, hcall]
      exact ReplayCache.put_self bounds key value (cacheAt bounds calls j)
    · exact recentAt_succ ⟨hbefore, hlast.2⟩ hi (hfresh i hi hbefore.before (Nat.lt_succ_self i))
        hnot (ih ⟨hbefore, hlast.2⟩ (Nat.le_of_succ_le hi) fun m hm hjm hmi =>
          hfresh m hm hjm (Nat.lt_succ_of_lt hmi))

/-- **What a replay cache promises** of call `i`, in the state it finds and the one it leaves. -/
structure CacheServes (bounds : ReplayBounds) (calls : List CacheCall) (i : ℕ) : Prop where
  /-- Neither all peers together nor one of them have more entries than they may. -/
  bounded : (cacheAt bounds calls i).Bounded bounds
  /-- What is found is what was put last. -/
  found : ∀ key now, calls[i]? = some (.get key now) → ∀ value,
    ((cacheAt bounds calls i).get bounds key now).1 = some value → ∃ j, LastPut calls key value i j
  /-- What is not found was never put, or is too old, or was crowded out since its last use. -/
  missed : ∀ key now, calls[i]? = some (.get key now) →
    ((cacheAt bounds calls i).get bounds key now).1 = none →
    (∀ j < i, ¬PutsAt calls key j) ∨
    (∃ value j, LastPut calls key value i j ∧ value.createdAt + bounds.ttl ≤ now) ∨
    CrowdedAt bounds calls key i
  /-- What has just been put is there. -/
  put : ∀ key value, PutAt calls key value i →
    (cacheAt bounds calls (i + 1)).get? key = some value
  /-- Only a call that puts something makes a young entry give way. -/
  young : ∀ h : i < calls.length, (∀ key, ¬PutsAt calls key i) →
    ∀ e ∈ (cacheAt bounds calls i).entries, calls[i].time < e.2.createdAt + bounds.ttl →
      e ∈ (cacheAt bounds calls (i + 1)).entries

/-- **Replay cache.** In every run of a new cache, with a clock that never goes backwards, the
cache keeps its promises at each call. -/
theorem replayCache_serves (bounds : ReplayBounds) (calls : List CacheCall)
    (hclock : calls.Pairwise fun a b => a.time ≤ b.time) (i : ℕ) (hi : i ≤ calls.length) :
    CacheServes bounds calls i where
  bounded := cacheAt_bounded i hi
  found key now _ value hvalue := lastPut_of_mem hi (ReplayCache.get_eq_some hvalue).1
  missed key now hcall hmiss := by
    obtain ⟨hlt, hcall⟩ := List.getElem?_eq_some_iff.mp hcall
    by_cases hput : ∃ j < i, PutsAt calls key j
    · obtain ⟨j, hlast⟩ := LastBefore.exists_of_before hput
      obtain ⟨value, hvalue⟩ := hlast.holds
      refine .inr ?_
      by_cases hexpired : value.createdAt + bounds.ttl ≤ now
      · exact .inl ⟨value, j, ⟨hlast, hvalue⟩, hexpired⟩
      · rw [not_le] at hexpired
        -- Every call since then comes before this one.
        have hfresh : ∀ m (hm : m < calls.length), j < m → m < i →
            calls[m].time < value.createdAt + bounds.ttl := by
          intro m hm _ hmi
          have hle := List.pairwise_iff_getElem.mp hclock m i hm hlt hmi
          rw [hcall] at hle
          exact lt_of_le_of_lt hle hexpired
        rcases recentAt_or_crowdedAt ⟨hlast, hvalue⟩ hi hfresh with ⟨-, -, K, hremembers, -⟩ | h
        · exact absurd hmiss (hremembers.get_self bounds hexpired).1
        · exact .inr h
    · exact .inl fun j hj h => hput ⟨j, hj, h⟩
  put key value hput := by
    obtain ⟨hlt, hcall⟩ := List.getElem?_eq_some_iff.mp hput
    rw [cacheAt_succ hlt, hcall]
    exact ReplayCache.get?_put_self bounds key value (cacheAt bounds calls i)
  young hlt hnot e he hyoung := by
    rw [cacheAt_succ hlt]
    cases hcall : calls[i] with
    | put key request responses now =>
      exact absurd ⟨⟨request, responses, now⟩, List.getElem?_eq_some_iff.mpr ⟨hlt, hcall⟩⟩
        (hnot key)
    | get key now =>
      rw [hcall] at hyoung
      exact OrderedDict.mem_entries_moveToEnd.mpr
        (ReplayCache.mem_expire.mpr ⟨he, sub_lt_iff_lt_add'.mpr hyoung⟩)
    | expire now =>
      rw [hcall] at hyoung
      exact ReplayCache.mem_expire.mpr ⟨he, sub_lt_iff_lt_add'.mpr hyoung⟩

end Runs

section Crowding

/-- Three requests of one peer, which may have two; the first one is looked up again. -/
def crowdingCalls : List CacheCall :=
  [.put (str "A", str "000") [0] [] 0, .get (str "A", str "000") 0,
    .put (str "A", str "001") [1] [] 0, .put (str "A", str "002") [2] [] 0,
    .get (str "A", str "000") 1]

theorem crowdingBounds_ttl : (0 : ℚ) < 2 := by decide

def crowdingBounds : ReplayBounds := ⟨2, 3, 2, crowdingBounds_ttl, by decide, Nat.two_pos⟩

/-- It has given way to the other two. -/
theorem replayCache_serves_crowding :
    (crowdingCalls.Pairwise fun a b => a.time ≤ b.time) ∧ 4 ≤ crowdingCalls.length ∧
    ((cacheAt crowdingBounds crowdingCalls 4).get crowdingBounds (str "A", str "000") 1).1 = none ∧
    CacheServes crowdingBounds crowdingCalls 4 := by
  have hclock : crowdingCalls.Pairwise fun a b => a.time ≤ b.time := by decide +kernel
  exact ⟨hclock, by decide, by decide +kernel,
    replayCache_serves crowdingBounds crowdingCalls hclock 4 (by decide)⟩

end Crowding

end OpenQSP
