import Mathlib.Data.Finset.Dedup
import Mathlib.Data.Finset.Card
import Mathlib.Tactic.Tauto

/-!
# Insertion-ordered dictionaries

A finite map that remembers the order in which its keys were inserted, with the operations of a
mapping whose iteration order is observable: assignment keeps the place of a key that is already
there, `moveToEnd` makes a key the youngest one, `dropFirst` drops the oldest ones.

Keys are distinct by construction, so no lemma below carries a well-formedness hypothesis, and
"`d` holds `v` under `k`" may be read either as `d.get? k = some v` or as `(k, v) ∈ d.entries`.

## Recency

`d.YoungerIn k K` says that `k` is present and every key inserted or refreshed after it lies in
`K`. It is the invariant behind every least-recently-used argument: when the oldest entries are
dropped until a bound holds, a key that disappears was followed by at least `bound` keys, and all
of them lie in `K`.

## Main definitions

* `OrderedDict` — entries with distinct keys
* `OrderedDict.get?`, `set`, `erase`, `filter`, `moveToEnd`, `dropFirst`
* `OrderedDict.YoungerIn` — the recency predicate

## Main results

* `get?_eq_some_iff`, `get?_set`, `get?_erase`, `get?_filter`, `get?_moveToEnd`
* `YoungerIn.set`, `YoungerIn.moveToEnd`, `YoungerIn.filter` — how recency evolves
* `YoungerIn.card_le_of_mem_take` — a key among the oldest ones of its group is followed by every
  key of the group that is not, and those lie in `K`
-/

namespace OpenQSP

/-- A dictionary that iterates in insertion order. -/
structure OrderedDict (κ ν : Type) where
  /-- The entries, oldest first. -/
  entries : List (κ × ν)
  /-- No key occurs twice. -/
  nodup_keys : (entries.map Prod.fst).Nodup

namespace OrderedDict

variable {κ ν : Type}

/-- The keys, oldest first. -/
def keys (d : OrderedDict κ ν) : List κ := d.entries.map Prod.fst

/-- The values, oldest first. -/
def values (d : OrderedDict κ ν) : List ν := d.entries.map Prod.snd

/-- The number of entries. -/
def size (d : OrderedDict κ ν) : ℕ := d.entries.length

/-- The dictionary without entries. -/
def empty : OrderedDict κ ν := ⟨[], List.nodup_nil⟩

/-- Keep the entries that satisfy `p`, in their order. -/
def filter (d : OrderedDict κ ν) (p : κ × ν → Bool) : OrderedDict κ ν :=
  ⟨d.entries.filter p, d.nodup_keys.sublist (List.filter_sublist.map _)⟩

/-- Drop the `n` oldest entries. -/
def dropFirst (d : OrderedDict κ ν) (n : ℕ) : OrderedDict κ ν :=
  ⟨d.entries.drop n, d.nodup_keys.sublist ((List.drop_sublist n _).map _)⟩

@[ext] theorem ext {d d' : OrderedDict κ ν} (h : d.entries = d'.entries) : d = d' := by
  cases d; cases d'; cases h; rfl

theorem mem_keys_of_mem {d : OrderedDict κ ν} {k : κ} {v : ν} (h : (k, v) ∈ d.entries) :
    k ∈ d.keys := List.mem_map_of_mem h

theorem mem_entries_filter {d : OrderedDict κ ν} {p : κ × ν → Bool} {e : κ × ν} :
    e ∈ (d.filter p).entries ↔ e ∈ d.entries ∧ p e = true := List.mem_filter

theorem mem_values_of_filter {d : OrderedDict κ ν} {p : κ × ν → Bool} {v : ν}
    (h : v ∈ (d.filter p).values) : v ∈ d.values :=
  List.Sublist.subset (List.filter_sublist.map _) h

theorem size_filter_le (d : OrderedDict κ ν) (p : κ × ν → Bool) : (d.filter p).size ≤ d.size :=
  List.length_filter_le _ _

theorem filter_eq_self {d : OrderedDict κ ν} {p : κ × ν → Bool} (h : ∀ e ∈ d.entries, p e) :
    d.filter p = d := by
  ext1
  exact List.filter_eq_self.mpr h

theorem size_dropFirst (d : OrderedDict κ ν) (n : ℕ) : (d.dropFirst n).size = d.size - n :=
  List.length_drop

theorem filter_congr {d : OrderedDict κ ν} {p q : κ × ν → Bool} (h : ∀ e ∈ d.entries, p e = q e) :
    d.filter p = d.filter q := OrderedDict.ext (List.filter_congr h)

theorem filter_filter_comm (d : OrderedDict κ ν) (p q : κ × ν → Bool) :
    (d.filter p).filter q = (d.filter q).filter p := ext (List.filter_comm _ _ d.entries)

@[simp] theorem dropFirst_zero (d : OrderedDict κ ν) : d.dropFirst 0 = d := rfl

theorem mem_entries_of_dropFirst {d : OrderedDict κ ν} {n : ℕ} {e : κ × ν}
    (h : e ∈ (d.dropFirst n).entries) : e ∈ d.entries := List.mem_of_mem_drop h

section Lookup

variable [DecidableEq κ]

/-- The value stored under `k`. -/
def get? (d : OrderedDict κ ν) (k : κ) : Option ν :=
  (d.entries.find? fun e => e.1 = k).map Prod.snd

/-- Assignment on the entry list: an existing key keeps its place, a new one goes to the end. -/
def assign (k : κ) (v : ν) : List (κ × ν) → List (κ × ν)
  | [] => [(k, v)]
  | e :: l => if e.1 = k then (k, v) :: l else e :: assign k v l

theorem keys_assign (k : κ) (v : ν) : ∀ l : List (κ × ν),
    (assign k v l).map Prod.fst
      = if k ∈ l.map Prod.fst then l.map Prod.fst else l.map Prod.fst ++ [k]
  | [] => by simp [assign]
  | e :: l => by
    by_cases h : e.1 = k
    · simp [assign, h]
    · have hk : k ≠ e.1 := fun hc => h hc.symm
      simp only [assign, h, if_false, List.map_cons, keys_assign k v l, List.mem_cons, hk,
        false_or]
      split <;> simp

theorem nodup_keys_assign {k : κ} {v : ν} {l : List (κ × ν)} (h : (l.map Prod.fst).Nodup) :
    ((assign k v l).map Prod.fst).Nodup := by
  rw [keys_assign]
  split
  · exact h
  · next hk => exact List.nodup_append.mpr ⟨h, List.nodup_singleton k, by
      intro a ha b hb
      rw [List.mem_singleton.mp hb]
      exact fun hc => hk (hc ▸ ha)⟩

theorem assign_of_notMem {k : κ} (v : ν) : ∀ {l : List (κ × ν)}, k ∉ l.map Prod.fst →
    assign k v l = l ++ [(k, v)]
  | [], _ => rfl
  | e :: l, h => by
    rw [List.map_cons, List.mem_cons, not_or] at h
    rw [assign, if_neg (Ne.symm h.1), assign_of_notMem v h.2, List.cons_append]

/-- `d[k] = v`. -/
def set (d : OrderedDict κ ν) (k : κ) (v : ν) : OrderedDict κ ν :=
  ⟨assign k v d.entries, nodup_keys_assign d.nodup_keys⟩

/-- Remove `k`, if present. -/
def erase (d : OrderedDict κ ν) (k : κ) : OrderedDict κ ν := d.filter fun e => e.1 ≠ k

/-- Make `k`, if present, the youngest entry. -/
def moveToEnd (d : OrderedDict κ ν) (k : κ) : OrderedDict κ ν where
  entries := d.entries.filter (fun e => e.1 ≠ k) ++ d.entries.filter (fun e => e.1 = k)
  nodup_keys := by
    have hperm : (d.entries.filter (fun e => e.1 ≠ k) ++ d.entries.filter (fun e => e.1 = k)).Perm
        d.entries := by
      simpa using (List.perm_append_comm.trans
        (List.filter_append_perm (fun e => decide (e.1 = k)) d.entries))
    exact ((hperm.map Prod.fst).nodup_iff).mpr d.nodup_keys

/-! ### Lookup -/

theorem get?_eq_some_iff {d : OrderedDict κ ν} {k : κ} {v : ν} :
    d.get? k = some v ↔ (k, v) ∈ d.entries := by
  obtain ⟨l, hl⟩ := d
  simp only [get?]
  induction l with
  | nil => simp
  | cons e l ih =>
    have hl' := List.nodup_cons.mp hl
    rcases eq_or_ne e.1 k with h | h
    · subst h
      rw [List.find?_cons_of_pos (by simp), Option.map_some, Option.some.injEq, List.mem_cons]
      refine ⟨fun hv => .inl (by rw [← hv]), ?_⟩
      rintro (he | hmem)
      · rw [← he]
      · exact absurd (List.mem_map_of_mem hmem) hl'.1
    · rw [List.find?_cons_of_neg (by simpa using h), ih hl'.2, List.mem_cons]
      refine ⟨.inr, ?_⟩
      rintro (he | hmem)
      · exact absurd (by rw [← he]) h
      · exact hmem

/-- A key has one entry. -/
theorem eq_of_fst_eq {d : OrderedDict κ ν} {e e' : κ × ν} (he : e ∈ d.entries)
    (he' : e' ∈ d.entries)
    (h : e.1 = e'.1) : e = e' := by
  have hvalue := (get?_eq_some_iff (k := e.1)).mpr he
  rw [h, get?_eq_some_iff.mpr he'] at hvalue
  exact Prod.ext h (Option.some.inj hvalue).symm

theorem get?_eq_none_iff {d : OrderedDict κ ν} {k : κ} : d.get? k = none ↔ k ∉ d.keys := by
  simp only [get?, Option.map_eq_none_iff, List.find?_eq_none, keys, List.mem_map, not_exists,
    not_and, decide_eq_true_eq]

theorem mem_keys_iff {d : OrderedDict κ ν} {k : κ} : k ∈ d.keys ↔ ∃ v, d.get? k = some v := by
  rw [← Option.isSome_iff_exists, Option.isSome_iff_ne_none, ne_eq, get?_eq_none_iff, not_not]

@[simp] theorem get?_empty (k : κ) : (empty : OrderedDict κ ν).get? k = none := rfl

/-- Two dictionaries agree on a key as soon as they hold the same entries under it. -/
theorem get?_congr {d d' : OrderedDict κ ν} {k : κ}
    (h : ∀ v, (k, v) ∈ d.entries ↔ (k, v) ∈ d'.entries) : d.get? k = d'.get? k :=
  Option.ext fun v => by rw [get?_eq_some_iff, get?_eq_some_iff, h]

theorem get?_filter (d : OrderedDict κ ν) (p : κ × ν → Bool) (k : κ) :
    (d.filter p).get? k = (d.get? k).filter fun v => p (k, v) := by
  refine Option.ext fun v => ?_
  rw [get?_eq_some_iff, mem_entries_filter, Option.filter_eq_some_iff, get?_eq_some_iff]

theorem mem_entries_erase {d : OrderedDict κ ν} {k : κ} {e : κ × ν} :
    e ∈ (d.erase k).entries ↔ e ∈ d.entries ∧ e.1 ≠ k := by
  rw [erase, mem_entries_filter, decide_eq_true_eq]

theorem get?_erase (d : OrderedDict κ ν) (k k' : κ) :
    (d.erase k).get? k' = if k' = k then none else d.get? k' := by
  rw [erase, get?_filter]
  split <;> rename_i h <;> cases d.get? k' <;> simp [h]

@[simp] theorem get?_erase_self (d : OrderedDict κ ν) (k : κ) : (d.erase k).get? k = none := by
  rw [get?_erase, if_pos rfl]

theorem get?_erase_of_ne {d : OrderedDict κ ν} {k k' : κ} (h : k' ≠ k) :
    (d.erase k).get? k' = d.get? k' := by rw [get?_erase, if_neg h]

theorem mem_assign {k : κ} {v : ν} {e : κ × ν} : ∀ {l : List (κ × ν)}, (l.map Prod.fst).Nodup →
    (e ∈ assign k v l ↔ e = (k, v) ∨ (e ∈ l ∧ e.1 ≠ k))
  | [], _ => by simp [assign]
  | a :: l, h => by
    have hl := List.nodup_cons.mp h
    rcases eq_or_ne a.1 k with hk | hk
    · subst hk
      have hnot : ∀ b ∈ l, b.1 ≠ a.1 := fun b hb hc => hl.1 (hc ▸ List.mem_map_of_mem hb)
      simp only [assign, if_true, List.mem_cons]
      constructor
      · rintro (rfl | hb)
        · exact .inl rfl
        · exact .inr ⟨.inr hb, hnot e hb⟩
      · rintro (rfl | ⟨rfl | hb, hne⟩)
        · exact .inl rfl
        · exact absurd rfl hne
        · exact .inr hb
    · simp only [assign, hk, if_false, List.mem_cons, mem_assign hl.2]
      constructor
      · rintro (rfl | rfl | ⟨hb, hne⟩)
        · exact .inr ⟨.inl rfl, hk⟩
        · exact .inl rfl
        · exact .inr ⟨.inr hb, hne⟩
      · rintro (rfl | ⟨rfl | hb, hne⟩)
        · exact .inr (.inl rfl)
        · exact .inl rfl
        · exact .inr (.inr ⟨hb, hne⟩)

theorem mem_entries_set {d : OrderedDict κ ν} {k : κ} {v : ν} {e : κ × ν} :
    e ∈ (d.set k v).entries ↔ e = (k, v) ∨ (e ∈ d.entries ∧ e.1 ≠ k) := mem_assign d.nodup_keys

/-- A new key goes to the end. -/
theorem entries_set_of_notMem {d : OrderedDict κ ν} {k : κ} (h : k ∉ d.keys) (v : ν) :
    (d.set k v).entries = d.entries ++ [(k, v)] := assign_of_notMem v h

theorem get?_set (d : OrderedDict κ ν) (k k' : κ) (v : ν) :
    (d.set k v).get? k' = if k' = k then some v else d.get? k' := by
  refine Option.ext fun w => ?_
  rw [get?_eq_some_iff, mem_entries_set]
  split <;> rename_i h
  · subst h; simp [eq_comm]
  · rw [get?_eq_some_iff]; simp [h]

@[simp] theorem get?_set_self (d : OrderedDict κ ν) (k : κ) (v : ν) :
    (d.set k v).get? k = some v := by rw [get?_set, if_pos rfl]

theorem get?_set_of_ne {d : OrderedDict κ ν} {k k' : κ} {v : ν} (h : k' ≠ k) :
    (d.set k v).get? k' = d.get? k' := by rw [get?_set, if_neg h]

theorem map_assign {α : Type} {f : ν → α} {k : κ} {v w : ν} (hvw : f w = f v) :
    ∀ {l : List (κ × ν)},
    (l.map Prod.fst).Nodup → (k, v) ∈ l →
    ((assign k w l).map Prod.snd).map f = (l.map Prod.snd).map f
  | e :: l, hnodup, h => by
    have hl := List.nodup_cons.mp hnodup
    rcases List.mem_cons.mp h with rfl | h
    · rw [assign, if_pos rfl]
      simp only [List.map_cons, hvw]
    · have hne : e.1 ≠ k := by
        rintro rfl
        exact hl.1 (List.mem_map.mpr ⟨(e.1, v), h, rfl⟩)
      rw [assign, if_neg hne]
      simp only [List.map_cons, map_assign hvw hl.2 h]

/-- Replacing a value by one with the same image. -/
theorem map_values_set {α : Type} {f : ν → α} {d : OrderedDict κ ν} {k : κ} {v w : ν}
    (h : d.get? k = some v) (hvw : f w = f v) : (d.set k w).values.map f = d.values.map f :=
  map_assign hvw d.nodup_keys (get?_eq_some_iff.mp h)

theorem perm_filter_ne {k : κ} {v : ν} : ∀ {l : List (κ × ν)}, (l.map Prod.fst).Nodup → (k, v) ∈ l →
    l.Perm ((k, v) :: l.filter fun e => e.1 ≠ k)
  | e :: l, hnodup, h => by
    have hl := List.nodup_cons.mp hnodup
    rcases List.mem_cons.mp h with rfl | h
    · have hothers : ∀ e ∈ l, decide (e.1 ≠ k) = true := fun e he =>
        decide_eq_true fun heq => hl.1 (List.mem_map.mpr ⟨e, he, heq⟩)
      rw [List.filter_cons_of_neg (by simp), List.filter_eq_self.mpr hothers]
    · have hne : e.1 ≠ k := by
        rintro rfl
        exact hl.1 (List.mem_map.mpr ⟨(e.1, v), h, rfl⟩)
      rw [List.filter_cons_of_pos (by simpa using hne)]
      exact ((perm_filter_ne hl.2 h).cons e).trans (List.Perm.swap _ _ _)

/-- The value under a key, and the values under the others. -/
theorem values_perm_erase {d : OrderedDict κ ν} {k : κ} {v : ν} (h : d.get? k = some v) :
    d.values.Perm (v :: (d.erase k).values) :=
  (perm_filter_ne d.nodup_keys (get?_eq_some_iff.mp h)).map Prod.snd

/-- A value after an assignment is the new one, or it was there under another key. -/
theorem mem_values_set {d : OrderedDict κ ν} {k : κ} {v w : ν} :
    w ∈ (d.set k v).values ↔ w = v ∨ w ∈ (d.erase k).values := by
  simp only [values, List.mem_map, mem_entries_set, mem_entries_erase]
  constructor
  · rintro ⟨e, rfl | he, rfl⟩
    · exact .inl rfl
    · exact .inr ⟨e, he, rfl⟩
  · rintro (rfl | ⟨e, he, rfl⟩)
    · exact ⟨(k, w), .inl rfl, rfl⟩
    · exact ⟨e, .inr he, rfl⟩

theorem mem_entries_moveToEnd {d : OrderedDict κ ν} {k : κ} {e : κ × ν} :
    e ∈ (d.moveToEnd k).entries ↔ e ∈ d.entries := by
  simp only [moveToEnd, List.mem_append, List.mem_filter, decide_eq_true_eq]
  tauto

@[simp] theorem get?_moveToEnd (d : OrderedDict κ ν) (k k' : κ) :
    (d.moveToEnd k).get? k' = d.get? k' := get?_congr fun _ => mem_entries_moveToEnd

theorem size_moveToEnd (d : OrderedDict κ ν) (k : κ) : (d.moveToEnd k).size = d.size := by
  have h := List.length_eq_length_filter_add (l := d.entries) fun e => decide (e.1 ≠ k)
  simp only [ne_eq, decide_not, Bool.not_not] at h
  simp only [size, moveToEnd, List.length_append, ne_eq, decide_not, h]

/-- Refreshing a key only changes the order. -/
theorem keys_moveToEnd_perm (d : OrderedDict κ ν) (k : κ) : (d.moveToEnd k).keys.Perm d.keys := by
  have hperm := List.perm_append_comm.trans
    (List.filter_append_perm (fun e : κ × ν => decide (e.1 = k)) d.entries)
  have hkeys := hperm.map Prod.fst
  simpa [keys, moveToEnd] using hkeys

theorem filter_assign (k : κ) (v : ν) : ∀ l : List (κ × ν),
    (assign k v l).filter (fun e => e.1 ≠ k) = l.filter fun e => e.1 ≠ k
  | [] => by simp [assign]
  | e :: l => by
    by_cases h : e.1 = k
    · simp [assign, h]
    · have ih := filter_assign k v l
      simp only [ne_eq, decide_not] at ih
      simp [assign, h, ih]

theorem erase_set (d : OrderedDict κ ν) (k : κ) (v : ν) : (d.set k v).erase k = d.erase k :=
  ext (filter_assign k v d.entries)

theorem filter_assign_of_ne {k k' : κ} (hne : k' ≠ k) (v : ν) : ∀ l : List (κ × ν),
    (assign k' v l).filter (fun e => e.1 ≠ k) = assign k' v (l.filter fun e => e.1 ≠ k)
  | [] => by simp [assign, hne]
  | e :: l => by
    have ih := filter_assign_of_ne hne v l
    by_cases hk' : e.1 = k'
    · rw [assign, if_pos hk', List.filter_cons_of_pos (by simpa using hne),
        List.filter_cons_of_pos (by simpa [hk'] using hne), assign, if_pos hk']
    · rw [assign, if_neg hk']
      by_cases hk : e.1 = k
      · rw [List.filter_cons_of_neg (by simpa using hk),
          List.filter_cons_of_neg (by simpa using hk), ih]
      · rw [List.filter_cons_of_pos (by simpa using hk),
          List.filter_cons_of_pos (by simpa using hk), ih,
          assign, if_neg hk']

/-- Assigning to one key and removing another one may be exchanged. -/
theorem erase_set_of_ne {k k' : κ} (hne : k' ≠ k) (d : OrderedDict κ ν) (v : ν) :
    (d.set k' v).erase k = (d.erase k).set k' v := ext (filter_assign_of_ne hne v d.entries)

theorem erase_moveToEnd (d : OrderedDict κ ν) (k k' : κ) :
    (d.moveToEnd k').erase k = (d.erase k).moveToEnd k' := by
  refine ext ?_
  show (d.entries.filter (fun e => e.1 ≠ k') ++ d.entries.filter (fun e => e.1 = k')).filter _ = _
  rw [List.filter_append]
  exact congrArg₂ (· ++ ·) (List.filter_comm _ _ d.entries) (List.filter_comm _ _ d.entries)

/-- A key that is not among the oldest ones stays when these are dropped. -/
theorem get?_dropFirst {d : OrderedDict κ ν} {n : ℕ} {k : κ} (h : k ∉ d.keys.take n) :
    (d.dropFirst n).get? k = d.get? k := by
  have hnone : (d.entries.take n).find? (fun e => decide (e.1 = k)) = none := by
    refine List.find?_eq_none.mpr fun e he hk => h ?_
    rw [keys, ← List.map_take]
    exact List.mem_map.mpr ⟨e, he, of_decide_eq_true hk⟩
  have hsplit : d.entries.find? (fun e => decide (e.1 = k)) =
      (d.entries.drop n).find? fun e => decide (e.1 = k) := by
    rw [← List.take_append_drop n d.entries, List.find?_append, hnone, Option.none_or,
      List.take_append_drop]
  rw [get?, get?, hsplit]
  rfl

/-- Refreshing a key twice is refreshing it once. -/
theorem moveToEnd_moveToEnd (d : OrderedDict κ ν) (k : κ) :
    (d.moveToEnd k).moveToEnd k = d.moveToEnd k := by
  ext1
  simp only [moveToEnd, List.filter_append, List.filter_filter]
  congr 1 <;> simp

theorem moveToEnd_of_notMem {d : OrderedDict κ ν} {k : κ} (h : k ∉ d.keys) : d.moveToEnd k = d := by
  have hne : ∀ e ∈ d.entries, e.1 ≠ k := fun e he hk => h (hk ▸ List.mem_map_of_mem he)
  have h₁ : d.entries.filter (fun e => e.1 ≠ k) = d.entries :=
    List.filter_eq_self.mpr fun e he => by simpa using hne e he
  have h₂ : d.entries.filter (fun e => e.1 = k) = [] :=
    List.filter_eq_nil_iff.mpr fun e he => by simpa using hne e he
  ext1
  simp only [moveToEnd, h₁, h₂, List.append_nil]

theorem keys_set (d : OrderedDict κ ν) (k : κ) (v : ν) :
    (d.set k v).keys = if k ∈ d.keys then d.keys else d.keys ++ [k] := keys_assign k v d.entries

theorem size_set (d : OrderedDict κ ν) (k : κ) (v : ν) :
    (d.set k v).size = if k ∈ d.keys then d.size else d.size + 1 := by
  have h := congrArg List.length (keys_assign k v d.entries)
  simp only [List.length_map] at h
  rw [size, set, h, keys]
  split <;> simp [size]

end Lookup

/-! ### Recency -/

/-- `k` is present, and every key that is younger than `k` lies in `K`. -/
def YoungerIn (d : OrderedDict κ ν) (k : κ) (K : Finset κ) : Prop :=
  ∃ l₁ v l₂, d.entries = l₁ ++ (k, v) :: l₂ ∧ ∀ e ∈ l₂, e.1 ∈ K

namespace YoungerIn

variable {d : OrderedDict κ ν} {k : κ} {K : Finset κ}

theorem mono (h : d.YoungerIn k K) {K' : Finset κ} (hK : K ⊆ K') : d.YoungerIn k K' := by
  obtain ⟨l₁, v, l₂, he, hl⟩ := h
  exact ⟨l₁, v, l₂, he, fun e hm => hK (hl e hm)⟩

theorem mem_keys (h : d.YoungerIn k K) : k ∈ d.keys := by
  obtain ⟨l₁, v, l₂, he, -⟩ := h
  simp [keys, he]

/-- Dropping old entries either keeps `k` or drops it among the oldest ones. -/
theorem dropFirst (h : d.YoungerIn k K) (n : ℕ) :
    (d.dropFirst n).YoungerIn k K ∨ k ∈ d.keys.take n := by
  obtain ⟨l₁, v, l₂, he, hl⟩ := h
  rcases Nat.lt_or_ge l₁.length n with hn | hn
  · refine .inr ?_
    obtain ⟨j, rfl⟩ := Nat.exists_eq_add_of_lt hn
    have hlen : (l₁.map Prod.fst).length = l₁.length := List.length_map _
    rw [keys, he, List.map_append, List.map_cons, Nat.add_assoc, ← hlen,
      List.take_length_add_append]
    exact List.mem_append_right _ (by simp)
  · refine .inl ⟨l₁.drop n, v, l₂, ?_, hl⟩
    exact (congrArg (List.drop n) he).trans (List.drop_append_of_le_length hn)

variable [DecidableEq κ]

/-- Filtering by the values needs the test only at the value `k` holds. -/
theorem filter (h : d.YoungerIn k K) {p : κ × ν → Bool} {v : ν} (hv : d.get? k = some v)
    (hp : p (k, v) = true) : (d.filter p).YoungerIn k K := by
  obtain ⟨l₁, w, l₂, he, hl⟩ := h
  have hw : d.get? k = some w := get?_eq_some_iff.mpr (by simp [he])
  obtain rfl : w = v := Option.some.inj (hw.symm.trans hv)
  refine ⟨l₁.filter p, w, l₂.filter p, ?_, fun e hm => hl e (List.mem_of_mem_filter hm)⟩
  simp [OrderedDict.filter, he, hp]

/-- Refreshing `k'` puts it behind every other key. -/
theorem moveToEnd (h : d.YoungerIn k K) {k' : κ} (hne : k' ≠ k) :
    (d.moveToEnd k').YoungerIn k (insert k' K) := by
  obtain ⟨l₁, v, l₂, he, hl⟩ := h
  refine ⟨l₁.filter (fun e => e.1 ≠ k'), v,
    l₂.filter (fun e => e.1 ≠ k') ++ d.entries.filter (fun e => e.1 = k'), ?_, fun e hm => ?_⟩
  · simp [OrderedDict.moveToEnd, he, hne.symm]
  · rcases List.mem_append.mp hm with hm | hm
    · exact Finset.mem_insert_of_mem (hl e (List.mem_of_mem_filter hm))
    · have hk : e.1 = k' := by simpa using (List.mem_filter.mp hm).2
      exact hk ▸ Finset.mem_insert_self k' K

/-- A key that has just been refreshed has no younger key. -/
theorem moveToEnd_self {v : ν} (hv : d.get? k = some v) : (d.moveToEnd k).YoungerIn k ∅ := by
  obtain ⟨l₁, l₂, he⟩ := List.append_of_mem (get?_eq_some_iff.mp hv)
  have hnd : ((l₁ ++ (k, v) :: l₂).map Prod.fst).Nodup := he ▸ d.nodup_keys
  simp only [List.map_append, List.map_cons, List.nodup_append, List.nodup_cons] at hnd
  have h₁ : l₁.filter (fun e => e.1 = k) = [] := List.filter_eq_nil_iff.mpr fun e hm => by
    simpa using hnd.2.2 e.1 (List.mem_map_of_mem hm) k List.mem_cons_self
  have h₂ : l₂.filter (fun e => e.1 = k) = [] := List.filter_eq_nil_iff.mpr fun e hm => by
    simpa using fun hc : e.1 = k => hnd.2.1.1 (hc ▸ List.mem_map_of_mem hm)
  refine ⟨d.entries.filter (fun e => e.1 ≠ k), v, [], ?_, by simp⟩
  have hk : d.entries.filter (fun e => e.1 = k) = [(k, v)] := by
    rw [he, List.filter_append, List.filter_cons_of_pos (by simp), h₁, h₂, List.nil_append]
  exact congrArg _ hk

/-- Assigning another key either keeps its place or appends it. -/
theorem set (h : d.YoungerIn k K) {k' : κ} (hne : k' ≠ k) (w : ν) :
    (d.set k' w).YoungerIn k (insert k' K) := by
  obtain ⟨l₁, v, l₂, he, hl⟩ := h
  have key : ∀ l : List (κ × ν), ∃ l₁' l₂', assign k' w (l ++ (k, v) :: l₂)
      = l₁' ++ (k, v) :: l₂' ∧ ∀ e ∈ l₂', e.1 ∈ insert k' K := by
    intro l
    have htail : ∀ l₂ : List (κ × ν), (∀ e ∈ l₂, e.1 ∈ K) →
        ∀ e ∈ assign k' w l₂, e.1 ∈ insert k' K := by
      intro l₂ hl₂ e hm
      have hm' : e.1 ∈ (assign k' w l₂).map Prod.fst := List.mem_map_of_mem hm
      rw [keys_assign] at hm'
      have hin : ∀ x ∈ l₂.map Prod.fst, x ∈ insert k' K := fun x hx => by
        obtain ⟨a, ha, rfl⟩ := List.mem_map.mp hx
        exact Finset.mem_insert_of_mem (hl₂ a ha)
      split at hm'
      · exact hin _ hm'
      · rcases List.mem_append.mp hm' with hx | hx
        · exact hin _ hx
        · exact List.mem_singleton.mp hx ▸ Finset.mem_insert_self k' K
    induction l with
    | nil => exact ⟨[], assign k' w l₂, by simp [assign, hne.symm], htail l₂ hl⟩
    | cons a l ih =>
      by_cases ha : a.1 = k'
      · exact ⟨(k', w) :: l, l₂, by simp [assign, ha],
          fun e hm => Finset.mem_insert_of_mem (hl e hm)⟩
      · obtain ⟨l₁', l₂', heq, hl'⟩ := ih
        exact ⟨a :: l₁', l₂', by simp [assign, ha, heq], hl'⟩
  obtain ⟨l₁', l₂', heq, hl'⟩ := key l₁
  exact ⟨l₁', v, l₂', by rw [OrderedDict.set, ← heq, ← he], hl'⟩

/-- If `k` is among the `m` oldest keys of its group, every key of the group beyond those is
younger than `k`. -/
theorem card_le_of_mem_take (h : d.YoungerIn k K) {g : κ → Bool} {m : ℕ}
    (hk : k ∈ (d.keys.filter g).take m) :
    (d.keys.filter g).length - m ≤ ((K.erase k).filter fun x => g x = true).card := by
  obtain ⟨l₁, v, l₂, he, hl⟩ := h
  set a := l₁.map Prod.fst with ha
  set b := l₂.map Prod.fst with hb
  have hkeys : d.keys = a ++ k :: b := by simp [keys, he, ha, hb]
  have hnd : (a ++ k :: b).Nodup := hkeys ▸ d.nodup_keys
  simp only [List.nodup_append, List.nodup_cons] at hnd
  have hgk : g k = true := (List.mem_filter.mp (List.mem_of_mem_take hk)).2
  rw [hkeys, List.filter_append, List.filter_cons_of_pos hgk] at hk ⊢
  have hlt : (a.filter g).length < m := by
    by_contra hge
    rw [List.take_append_of_le_length (not_lt.mp hge)] at hk
    exact hnd.2.2 k (List.mem_of_mem_filter (List.mem_of_mem_take hk)) k List.mem_cons_self rfl
  have hsub : (b.filter g).toFinset ⊆ (K.erase k).filter fun x => g x = true := by
    intro x hx
    obtain ⟨hxb, hgx⟩ := List.mem_filter.mp (List.mem_toFinset.mp hx)
    obtain ⟨e, hm, rfl⟩ := List.mem_map.mp hxb
    exact Finset.mem_filter.mpr
      ⟨Finset.mem_erase.mpr ⟨fun hc => hnd.2.1.1 (hc ▸ hxb), hl e hm⟩, hgx⟩
  calc (a.filter g ++ k :: b.filter g).length - m
      ≤ (b.filter g).length := by simp only [List.length_append, List.length_cons]; omega
    _ = (b.filter g).toFinset.card :=
        (List.toFinset_card_of_nodup (hnd.2.1.2.filter g)).symm
    _ ≤ _ := Finset.card_le_card hsub

end YoungerIn

end OrderedDict

end OpenQSP
