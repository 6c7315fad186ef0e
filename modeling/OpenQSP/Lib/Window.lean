import Mathlib.Data.List.Range
import Mathlib.Data.List.Sort

/-!
# Ordered listings and row numbers

A table is a set of rows. A query lists them in the order of a key; when the keys of the rows are
distinct there is one such listing, whatever order the rows are stored in.

A window function numbers the rows of a listing within their partitions: the first row of a
partition gets one, the next row of the same partition gets two, and so on, wherever the rows of the
other partitions stand. Numbering does not change the listing, and each partition is numbered in the
order in which it is listed, without gaps.

With a single partition the number of a row is its place.

## Main definitions

* `orderBy` — the rows in the order of a key
* `rowNumbers` — the rows with their numbers, for rows that are listed in the order of the window

## Main results

* `orderBy_eq_of_pairwise`, `orderBy_eq_of_mem_iff` — there is one listing
* `map_fst_rowNumbers`, `map_snd_rowNumbers` — what is numbered, and with which numbers
* `nodup_rowNumbers` — partition and number identify a row
* `rowNumber_lt_iff` — the numbers are in the order of the keys
-/

namespace OpenQSP

section OrderBy

variable {α κ : Type} [LinearOrder κ]

/-- `ORDER BY` a key. -/
def orderBy (key : α → κ) (rows : List α) : List α := rows.insertionSort fun a b => key a ≤ key b

variable {key : α → κ} {rows rows' : List α}

theorem orderBy_perm (key : α → κ) (rows : List α) : (orderBy key rows).Perm rows :=
  List.perm_insertionSort _ rows

@[simp] theorem mem_orderBy {a : α} : a ∈ orderBy key rows ↔ a ∈ rows :=
  (orderBy_perm key rows).mem_iff

theorem pairwise_orderBy (key : α → κ) (rows : List α) :
    (orderBy key rows).Pairwise fun a b => key a ≤ key b := by
  have : IsTrans α fun a b => key a ≤ key b := ⟨fun _ _ _ => le_trans⟩
  have : Std.Total fun a b : α => key a ≤ key b := ⟨fun a b => le_total (key a) (key b)⟩
  exact List.pairwise_insertionSort _ rows

/-- Distinct keys are listed in strictly increasing order. -/
theorem pairwise_lt_orderBy (h : (rows.map key).Nodup) :
    (orderBy key rows).Pairwise fun a b => key a < key b := by
  have hnodup : ((orderBy key rows).map key).Nodup :=
    ((orderBy_perm key rows).map key).nodup_iff.mpr h
  rw [List.Nodup, List.pairwise_map] at hnodup
  exact (pairwise_orderBy key rows).imp₂ (fun _ _ hle hne => lt_of_le_of_ne hle hne) hnodup

/-- An increasing listing of the rows is the listing. -/
theorem orderBy_eq_of_pairwise (hperm : rows'.Perm rows)
    (h : rows'.Pairwise fun a b => key a < key b) : orderBy key rows = rows' := by
  have hkeys : (rows.map key).Nodup := by
    rw [← (hperm.map key).nodup_iff, List.Nodup, List.pairwise_map]
    exact h.imp fun hlt => hlt.ne
  refine ((orderBy_perm key rows).trans hperm.symm).eq_of_pairwise (fun a b ha hb hab hba => ?_)
    (pairwise_orderBy key rows) (h.imp fun hlt => hlt.le)
  exact List.inj_on_of_nodup_map hkeys (mem_orderBy.mp ha) (hperm.subset hb) (le_antisymm hab hba)

/-- Rows with distinct keys are listed in the same way wherever they are stored. -/
theorem orderBy_eq_of_mem_iff (hrows : (rows.map key).Nodup) (hrows' : (rows'.map key).Nodup)
    (hmem : ∀ a, a ∈ rows ↔ a ∈ rows') : orderBy key rows = orderBy key rows' :=
  orderBy_eq_of_pairwise ((orderBy_perm key rows').trans
    ((List.perm_ext_iff_of_nodup hrows'.of_map hrows.of_map).mpr fun a => (hmem a).symm))
    (pairwise_lt_orderBy hrows')

/-- Columns that do not belong to the key are changed before or after listing. -/
theorem map_orderBy {β : Type} (key : α → κ) (key' : β → κ) (f : α → β)
    (h : ∀ a, key' (f a) = key a) (rows : List α) : (orderBy key rows).map f =
      orderBy key' (rows.map f) :=
  List.map_insertionSort (fun a b => key a ≤ key b) (fun a b => key' a ≤ key' b) f rows
    fun a _ b _ => by rw [h, h]

end OrderBy

section Window

variable {α κ : Type} [DecidableEq κ] (partition : α → κ)

/-- Continue a numbering that has already used `used k` numbers in each partition `k`. -/
def rowNumbersFrom (used : κ → ℕ) : List α → List (α × ℕ)
  | [] => []
  | a :: rows => (a, used (partition a) + 1) ::
      rowNumbersFrom (Function.update used (partition a) (used (partition a) + 1)) rows

/-- `ROW_NUMBER() OVER (PARTITION BY partition ORDER BY …)` of rows that are listed in this
order. -/
def rowNumbers (rows : List α) : List (α × ℕ) := rowNumbersFrom partition (fun _ => 0) rows

variable {partition}

theorem map_fst_rowNumbersFrom (used : κ → ℕ) (rows : List α) :
    (rowNumbersFrom partition used rows).map Prod.fst = rows := by
  induction rows generalizing used with
  | nil => rfl
  | cons a rows ih => simp [rowNumbersFrom, ih]

/-- Each partition is numbered without gaps. -/
theorem map_snd_rowNumbersFrom (used : κ → ℕ) (rows : List α) (k : κ) :
    ((rowNumbersFrom partition used rows).filter fun e => partition e.1 = k).map Prod.snd =
      List.range' (used k + 1) (rows.countP fun a => partition a = k) := by
  induction rows generalizing used with
  | nil => rfl
  | cons a rows ih =>
    by_cases hk : partition a = k
    · subst hk
      simp [rowNumbersFrom, ih, List.range'_succ]
    · have hne : k ≠ partition a := fun h => hk h.symm
      simp [rowNumbersFrom, ih, hk, Function.update_of_ne hne]

variable (partition) in
@[simp] theorem map_fst_rowNumbers (rows : List α) :
    (rowNumbers partition rows).map Prod.fst = rows := map_fst_rowNumbersFrom _ rows

@[simp] theorem length_rowNumbers (rows : List α) :
    (rowNumbers partition rows).length = rows.length := by
  rw [← List.length_map Prod.fst, map_fst_rowNumbers]

variable (partition) in
theorem map_snd_rowNumbers (rows : List α) (k : κ) :
    ((rowNumbers partition rows).filter fun e => partition e.1 = k).map Prod.snd =
      List.range' 1 (rows.countP fun a => partition a = k) := map_snd_rowNumbersFrom _ rows k

variable (partition) in
/-- The rows of a partition, in their order. -/
theorem filter_rowNumbers (rows : List α) (p : α → Bool) :
    ((rowNumbers partition rows).filter fun e => p e.1).map Prod.fst = rows.filter p := by
  conv_rhs => rw [← map_fst_rowNumbers partition rows, List.filter_map]
  rfl

/-- A number is between one and the size of its partition. -/
theorem rowNumber_mem {rows : List α} {a : α} {n : ℕ} (h : (a, n) ∈ rowNumbers partition rows) :
    1 ≤ n ∧ n ≤ rows.countP fun b => partition b = partition a := by
  have hmem : n ∈ ((rowNumbers partition rows).filter fun e => partition e.1 = partition a).map
      Prod.snd := by
    simp only [List.mem_map, List.mem_filter, decide_eq_true_eq]
    exact ⟨_, ⟨h, rfl⟩, rfl⟩
  rw [map_snd_rowNumbers, List.mem_range'_1] at hmem
  omega

variable (partition) in
/-- Within a listing, a later row of the same partition has a greater number. -/
theorem pairwise_rowNumbers (rows : List α) : (rowNumbers partition rows).Pairwise
    fun e e' => partition e.1 = partition e'.1 → e.2 < e'.2 := by
  have hpartition : ∀ k, (rowNumbers partition rows).Pairwise
      fun e e' => partition e.1 = k → partition e'.1 = k → e.2 < e'.2 := by
    intro k
    have hrange := List.pairwise_lt_range' (s := 1) (n := rows.countP fun a => partition a = k)
    rw [← map_snd_rowNumbers, List.pairwise_map, List.pairwise_filter] at hrange
    simpa using hrange
  refine List.pairwise_iff_getElem.mpr fun i j hi hj hij hsame => ?_
  exact List.pairwise_iff_getElem.mp (hpartition _) i j hi hj hij hsame rfl

/-- Partition and number identify a row. -/
theorem nodup_rowNumbers (rows : List α) :
    ((rowNumbers partition rows).map fun e => (partition e.1, e.2)).Nodup := by
  rw [List.Nodup, List.pairwise_map]
  refine (pairwise_rowNumbers partition rows).imp fun h heq => ?_
  obtain ⟨hsame, hnumber⟩ := Prod.mk.inj heq
  exact (h hsame).ne hnumber

/-- With a single partition the numbers are the places. -/
theorem map_snd_rowNumbers_single (rows : List α) :
    (rowNumbers (fun _ => ()) rows).map Prod.snd = List.range' 1 rows.length := by
  simpa using map_snd_rowNumbers (fun _ : α => ()) rows ()

/-- With a single partition and distinct keys, the numbers are in the order of the keys. -/
theorem rowNumber_lt_iff {ρ : Type} [LinearOrder ρ] {key : α → ρ} {rows : List α}
    (h : (rows.map key).Nodup) {e e' : α × ℕ} (he : e ∈ rowNumbers (fun _ => ()) (orderBy key rows))
    (he' : e' ∈ rowNumbers (fun _ => ()) (orderBy key rows)) : e.2 < e'.2 ↔ key e.1 < key e'.1 := by
  have hkeys := pairwise_lt_orderBy h
  rw [← map_fst_rowNumbers (fun _ => ()) (orderBy key rows), List.pairwise_map] at hkeys
  have hboth := (pairwise_rowNumbers (fun _ => ()) (orderBy key rows)).and hkeys
  obtain ⟨i, hi, rfl⟩ := List.getElem_of_mem he
  obtain ⟨j, hj, rfl⟩ := List.getElem_of_mem he'
  rcases Nat.lt_trichotomy i j with hij | rfl | hji
  · obtain ⟨hnumber, hkey⟩ := List.pairwise_iff_getElem.mp hboth i j hi hj hij
    exact iff_of_true (hnumber rfl) hkey
  · exact iff_of_false (lt_irrefl _) (lt_irrefl _)
  · obtain ⟨hnumber, hkey⟩ := List.pairwise_iff_getElem.mp hboth j i hj hi hji
    exact iff_of_false (hnumber rfl).not_gt hkey.not_gt

end Window

end OpenQSP
