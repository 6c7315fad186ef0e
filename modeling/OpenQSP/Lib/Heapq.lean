import Mathlib.Data.List.Perm.Basic
import Mathlib.Data.List.Range
import Mathlib.Logic.Equiv.Basic
import Mathlib.Order.Defs.Unbundled

/-!
# Heaps in a list

Python's `heapq`: the item at `i` is not smaller than the one at its parent `(i - 1) / 2`, so that
the first item is a least one. An item that may be smaller than its parent climbs; one that may be
greater than its children is first exchanged with the smaller one down to a leaf, and climbs from
there.

The order is a total preorder `le`; `a < b` of the source is `¬le b a`.

## Main definitions

* `heappush`, `heappop`, `heapify`
* `IsHeap`
* `Climbs`, `Sinks` — heaps but for one item

## Main results

* `heappush_isHeap`, `heappop_isHeap`, `heapify_isHeap`, and `_perm`
* `IsHeap.head_le` — the first item is a least one
-/

namespace OpenQSP

namespace Heapq

section Functions

variable {α : Type} (le : α → α → Prop) [DecidableRel le]

def parent (i : ℕ) : ℕ := (i - 1) / 2

/-- Exchange two items. -/
def swap (heap : List α) (i j : ℕ) : List α :=
  match heap[i]?, heap[j]? with
  | some a, some b => (heap.set i b).set j a
  | _, _ => heap

/-- `heap[i] < heap[j]` -/
def less (heap : List α) (i j : ℕ) : Bool :=
  match heap[i]?, heap[j]? with
  | some a, some b => ¬le b a
  | _, _ => false

/-- `_siftdown`: an item climbs until it is not smaller than its parent, but not beyond `start`. -/
def siftdown (start : ℕ) : ℕ → ℕ → List α → List α
  | 0, _, heap => heap
  | fuel + 1, pos, heap =>
    if start < pos ∧ less le heap pos (parent pos) then
      siftdown start fuel (parent pos) (swap heap pos (parent pos))
    else heap

/-- The smaller one of the children. -/
def smallerChild (heap : List α) (pos : ℕ) : ℕ :=
  if 2 * pos + 2 < heap.length ∧ ¬less le heap (2 * pos + 1) (2 * pos + 2) then 2 * pos + 2
    else 2 * pos + 1

/-- The loop of `_siftup`: an item sinks to a leaf. -/
def sink : ℕ → ℕ → List α → ℕ × List α
  | 0, pos, heap => (pos, heap)
  | fuel + 1, pos, heap =>
    if 2 * pos + 1 < heap.length then
      sink fuel (smallerChild le heap pos) (swap heap pos (smallerChild le heap pos))
    else (pos, heap)

/-- `_siftup` -/
def siftup (pos : ℕ) (heap : List α) : List α :=
  let (leaf, heap) := sink le heap.length pos heap
  siftdown le pos leaf leaf heap

def heappush (heap : List α) (item : α) : List α :=
  siftdown le 0 heap.length heap.length (heap ++ [item])

def heappop (heap : List α) : Option (α × List α) :=
  match heap.dropLast, heap.getLast? with
  | _, none => none
  | [], some last => some (last, [])
  | top :: rest, some last => some (top, siftup le 0 (last :: rest))

def heapify (x : List α) : List α := (List.range (x.length / 2)).foldr (siftup le) x

end Functions

variable {α : Type} {le : α → α → Prop} {heap : List α} {start pos i j k : ℕ}

/-! ### Positions -/

theorem parent_lt (h : 0 < i) : parent i < i := by
  rw [parent]
  omega

theorem parent_eq_iff (h : 0 < i) : parent i = pos ↔ i = 2 * pos + 1 ∨ i = 2 * pos + 2 := by
  rw [parent]
  omega

/-- A position in the tree below `start`. -/
inductive Within (start : ℕ) : ℕ → Prop
  | refl : Within start start
  | child {i : ℕ} (pos : 0 < i) (h : Within start (parent i)) : Within start i

theorem Within.start_le (h : Within start i) : start ≤ i := by
  induction h with
  | refl => exact le_rfl
  | child pos _ ih => exact ih.trans (parent_lt pos).le

theorem Within.parent (h : Within start i) (hne : i ≠ start) : Within start (parent i) := by
  cases h with
  | refl => exact absurd rfl hne
  | child _ h => exact h

theorem Within.zero (i : ℕ) : Within 0 i := by
  induction i using Nat.strong_induction_on with
  | h i ih =>
    rcases Nat.eq_zero_or_pos i with rfl | hi
    · exact .refl
    · exact .child hi (ih _ (parent_lt hi))

/-! ### Exchanging -/

theorem swap_perm (heap : List α) (i j : ℕ) : (swap heap i j).Perm heap := by
  rw [swap]
  split
  · next a b ha hb =>
    obtain ⟨hi, rfl⟩ := List.getElem?_eq_some_iff.mp ha
    obtain ⟨hj, rfl⟩ := List.getElem?_eq_some_iff.mp hb
    exact List.set_set_perm hi hj
  · exact .refl _

@[simp] theorem length_swap (heap : List α) (i j : ℕ) : (swap heap i j).length = heap.length :=
  (swap_perm heap i j).length_eq

theorem getElem?_swap (hi : i < heap.length) (hj : j < heap.length) (k : ℕ) :
    (swap heap i j)[k]? = heap[Equiv.swap i j k]? := by
  rw [swap, List.getElem?_eq_getElem hi, List.getElem?_eq_getElem hj]
  dsimp only
  by_cases hkj : k = j
  · subst hkj
    rw [List.getElem?_set_self (by simpa using hj), Equiv.swap_apply_right,
      List.getElem?_eq_getElem hi]
  · rw [List.getElem?_set_ne (Ne.symm hkj)]
    by_cases hki : k = i
    · subst hki
      rw [List.getElem?_set_self hi, Equiv.swap_apply_left, List.getElem?_eq_getElem hj]
    · rw [List.getElem?_set_ne (Ne.symm hki), Equiv.swap_apply_of_ne_of_ne hki hkj]

/-! ### The order -/

variable (le) in
/-- The items at the two positions, if there are such, are in order. -/
def InOrder (heap : List α) (i j : ℕ) : Prop := ∀ a ∈ heap[i]?, ∀ b ∈ heap[j]?, le a b

variable (le) in
/-- No item below `start` is smaller than its parent. -/
def IsHeapFrom (start : ℕ) (heap : List α) : Prop :=
  ∀ i, 0 < i → start ≤ parent i → InOrder le heap (parent i) i

variable (le) in
def IsHeap (heap : List α) : Prop := IsHeapFrom le 0 heap

theorem inOrder_swap (hi : i < heap.length) (hj : j < heap.length) {k l : ℕ} :
    InOrder le (swap heap i j) k l ↔ InOrder le heap (Equiv.swap i j k) (Equiv.swap i j l) := by
  rw [InOrder, InOrder, getElem?_swap hi hj, getElem?_swap hi hj]

theorem inOrder_of_length_le (h : heap.length ≤ j) : InOrder le heap i j := by
  intro a _ b hb
  rw [List.getElem?_eq_none h] at hb
  cases hb

theorem IsHeap.nil : IsHeap le ([] : List α) := fun _ _ _ => inOrder_of_length_le (Nat.zero_le _)

/-! ### Heaps but for one item -/

variable (le) in
/-- A heap but for the item at `pos`, which may be smaller than its parent. -/
structure Climbs (start pos : ℕ) (heap : List α) : Prop where
  within : Within start pos
  order : ∀ i, 0 < i → start ≤ parent i → i ≠ pos → InOrder le heap (parent i) i
  past : pos ≠ start → ∀ i, 0 < i → parent i = pos → InOrder le heap (parent pos) i

variable (le) in
/-- A heap but for the item at `pos`, which may be smaller than its parent or greater than its
children. -/
structure Sinks (start pos : ℕ) (heap : List α) : Prop where
  within : Within start pos
  order : ∀ i, 0 < i → start ≤ parent i → i ≠ pos → parent i ≠ pos → InOrder le heap (parent i) i
  past : pos ≠ start → ∀ i, 0 < i → parent i = pos → InOrder le heap (parent pos) i

/-- At a leaf it can only be smaller than its parent. -/
theorem Sinks.climbs (h : Sinks le start pos heap) (hleaf : heap.length ≤ 2 * pos + 1) :
    Climbs le start pos heap := by
  have hnone : ∀ i j, 0 < i → parent i = pos → InOrder le heap j i := by
    intro i j hi hchild
    refine inOrder_of_length_le ?_
    rcases (parent_eq_iff hi).mp hchild with rfl | rfl <;> omega
  refine ⟨h.within, fun i hi hle hne => ?_, fun _ i hi hchild => hnone i _ hi hchild⟩
  by_cases hchild : parent i = pos
  · exact hnone i _ hi hchild
  · exact h.order i hi hle hne hchild

theorem InOrder.refl [Std.Total le] (heap : List α) (i : ℕ) : InOrder le heap i i := by
  intro a ha b hb
  obtain rfl := Option.mem_unique ha hb
  exact (Std.Total.total a a).elim id id

theorem InOrder.trans [IsTrans α le] (h : InOrder le heap i j) (h' : InOrder le heap j k)
    (hj : j < heap.length) :
    InOrder le heap i k := by
  intro a ha c hc
  have hb := Option.mem_def.mpr (List.getElem?_eq_getElem hj)
  exact trans_of le (h a ha _ hb) (h' _ hb c hc)

/-- The first item is a least one. -/
theorem IsHeap.head_le [Std.Total le] [IsTrans α le] (h : IsHeap le heap) {a : α}
    (ha : a ∈ heap.head?) :
    ∀ b ∈ heap, le a b := by
  intro b hb
  obtain ⟨i, hi, rfl⟩ := List.mem_iff_getElem.mp hb
  rw [List.head?_eq_getElem?] at ha
  suffices hle : InOrder le heap 0 i from hle a ha _ (List.getElem?_eq_getElem hi)
  clear hb
  induction i using Nat.strong_induction_on with
  | h i ih =>
    rcases Nat.eq_zero_or_pos i with rfl | hpos
    · exact .refl _ _
    · have hparent := (parent_lt hpos).trans hi
      exact (ih _ (parent_lt hpos) hparent).trans (h i hpos (Nat.zero_le _)) hparent

section Comparing

variable [DecidableRel le]

theorem inOrder_of_less [Std.Total le] (h : less le heap i j = true) : InOrder le heap i j := by
  intro a ha b hb
  rw [less, Option.mem_def.mp ha, Option.mem_def.mp hb] at h
  exact (Std.Total.total a b).resolve_right (of_decide_eq_true h)

theorem inOrder_of_not_less (h : ¬less le heap i j = true) : InOrder le heap j i := by
  intro b hb a ha
  rw [less, Option.mem_def.mp ha, Option.mem_def.mp hb] at h
  exact not_not.mp fun hnot => h (decide_eq_true hnot)

/-- Where the item stops climbing, all are in order. -/
theorem Climbs.stop (h : Climbs le start pos heap)
    (hstop : ¬(start < pos ∧ less le heap pos (parent pos))) :
    IsHeapFrom le start heap := by
  intro i hi hle
  by_cases hipos : i = pos
  · subst hipos
    exact inOrder_of_not_less fun hless => hstop ⟨hle.trans_lt (parent_lt hi), hless⟩
  · exact h.order i hi hle hipos

end Comparing

/-! ### Sinking and climbing -/

variable [DecidableRel le]

theorem siftdown_perm (start fuel pos : ℕ) (heap : List α) :
    (siftdown le start fuel pos heap).Perm heap := by
  induction fuel generalizing pos heap with
  | zero => exact .refl _
  | succ fuel ih =>
    rw [siftdown]
    split
    · exact (ih _ _).trans (swap_perm _ _ _)
    · exact .refl _

theorem heappush_perm (heap : List α) (item : α) : (heappush le heap item).Perm (item :: heap) :=
  (siftdown_perm _ _ _ _).trans (List.perm_append_singleton _ _)

variable (le) in
theorem smallerChild_spec [Std.Total le] (h : 2 * pos + 1 < heap.length) :
    0 < smallerChild le heap pos ∧ parent (smallerChild le heap pos) = pos ∧
      smallerChild le heap pos < heap.length ∧
      ∀ i, 0 < i → parent i = pos → InOrder le heap (smallerChild le heap pos) i := by
  rw [smallerChild]
  split
  · next hright =>
    obtain ⟨hlt, hless⟩ := hright
    refine ⟨by omega, (parent_eq_iff (by omega)).mpr (.inr rfl), hlt, fun i hi hchild => ?_⟩
    rcases (parent_eq_iff hi).mp hchild with rfl | rfl
    · exact inOrder_of_not_less hless
    · exact .refl _ _
  · next hleft =>
    refine ⟨by omega, (parent_eq_iff (by omega)).mpr (.inl rfl), h, fun i hi hchild => ?_⟩
    rcases (parent_eq_iff hi).mp hchild with rfl | rfl
    · exact .refl _ _
    · by_cases hlt : 2 * pos + 2 < heap.length
      · exact inOrder_of_less (not_not.mp fun hless => hleft ⟨hlt, hless⟩)
      · exact inOrder_of_length_le (not_lt.mp hlt)

theorem Sinks.sink [Std.Total le] (h : Sinks le start pos heap) (hlt : 2 * pos + 1 < heap.length) :
    Sinks le start (smallerChild le heap pos) (swap heap pos (smallerChild le heap pos)) := by
  obtain ⟨hchild, hparent, hlength, hsmaller⟩ := smallerChild_spec le hlt
  generalize smallerChild le heap pos = child at *
  have hpos : pos < child := hparent ▸ parent_lt hchild
  refine ⟨.child hchild (hparent ▸ h.within), fun i hi hle hne hne' => ?_, fun _ i hi hbelow => ?_⟩
  · rw [inOrder_swap (hpos.trans hlength) hlength]
    by_cases hipos : i = pos
    · subst hipos
      have hup := parent_lt hi
      rw [Equiv.swap_apply_left, Equiv.swap_apply_of_ne_of_ne hup.ne (hup.trans hpos).ne]
      exact h.past (hle.trans_lt hup).ne' child hchild hparent
    rw [Equiv.swap_apply_of_ne_of_ne hipos hne]
    by_cases hsibling : parent i = pos
    · rw [hsibling, Equiv.swap_apply_left]
      exact hsmaller i hi hsibling
    · rw [Equiv.swap_apply_of_ne_of_ne hsibling hne']
      exact h.order i hi hle hipos hsibling
  · have hi' : child < i := hbelow ▸ parent_lt hi
    rw [inOrder_swap (hpos.trans hlength) hlength, hparent, Equiv.swap_apply_left,
      Equiv.swap_apply_of_ne_of_ne (hpos.trans hi').ne' hi'.ne']
    refine hbelow ▸ h.order i hi ?_ (hpos.trans hi').ne' (hbelow.trans_ne hpos.ne')
    exact hbelow.symm ▸ h.within.start_le.trans hpos.le

theorem sink_climbs [Std.Total le] {fuel : ℕ} (h : Sinks le start pos heap)
    (hlt : pos < heap.length)
    (hfuel : heap.length ≤ pos + fuel) :
    Climbs le start (sink le fuel pos heap).1 (sink le fuel pos heap).2 ∧
      (sink le fuel pos heap).2.Perm heap ∧ (sink le fuel pos heap).1 <
        (sink le fuel pos heap).2.length := by
  induction fuel generalizing pos heap with
  | zero => exact absurd hfuel (not_le.mpr hlt)
  | succ fuel ih =>
    rw [sink]
    split
    · next hchildren =>
      obtain ⟨hchild, hparent, hlength, -⟩ := smallerChild_spec le hchildren
      have hpos : pos < smallerChild le heap pos := by
        have := parent_lt hchild
        omega
      obtain ⟨hclimbs, hperm, hleaf⟩ := ih (h.sink hchildren) (by rwa [length_swap])
        (by rw [length_swap]; omega)
      exact ⟨hclimbs, hperm.trans (swap_perm _ _ _), hleaf⟩
    · next hleaf => exact ⟨h.climbs (not_lt.mp hleaf), .refl _, hlt⟩

variable [Std.Total le] [IsTrans α le]

theorem Climbs.climb (h : Climbs le start pos heap) (hlt : pos < heap.length) (hstart : start < pos)
    (hless : less le heap pos (parent pos)) :
      Climbs le start (parent pos) (swap heap pos (parent pos)) := by
  have hpos : 0 < pos := (Nat.zero_le _).trans_lt hstart
  have hparent := parent_lt hpos
  have hup : InOrder le heap pos (parent pos) := inOrder_of_less hless
  refine ⟨h.within.parent hstart.ne', fun i hi hle hne => ?_, fun hne i hi hchild => ?_⟩
  · rw [inOrder_swap hlt (hparent.trans hlt)]
    by_cases hipos : i = pos
    · subst hipos
      rwa [Equiv.swap_apply_left, Equiv.swap_apply_right]
    rw [Equiv.swap_apply_of_ne_of_ne hipos hne]
    by_cases hsibling : parent i = parent pos
    · rw [hsibling, Equiv.swap_apply_right]
      exact hup.trans (hsibling ▸ h.order i hi hle hipos) (hparent.trans hlt)
    by_cases hchild : parent i = pos
    · rw [hchild, Equiv.swap_apply_left]
      exact h.past hstart.ne' i hi hchild
    · rw [Equiv.swap_apply_of_ne_of_ne hchild hsibling]
      exact h.order i hi hle hipos
  · have hwithin := h.within.parent hstart.ne'
    have hpos' : 0 < parent pos := (Nat.zero_le _).trans_lt
      (lt_of_le_of_ne hwithin.start_le (Ne.symm hne))
    have hparent' := parent_lt hpos'
    have habove : InOrder le heap (parent (parent pos)) (parent pos) :=
      h.order _ hpos' (hwithin.parent hne).start_le hparent.ne
    rw [inOrder_swap hlt (hparent.trans hlt),
      Equiv.swap_apply_of_ne_of_ne (hparent'.trans hparent).ne hparent'.ne]
    by_cases hipos : i = pos
    · rwa [hipos, Equiv.swap_apply_left]
    · have hne' : i ≠ parent pos := fun heq => (parent_lt hi).ne (hchild.trans heq.symm)
      rw [Equiv.swap_apply_of_ne_of_ne hipos hne']
      exact habove.trans (hchild ▸ h.order i hi (hchild ▸ hwithin.start_le) hipos)
        (hparent.trans hlt)

theorem siftdown_heapFrom {fuel : ℕ} (h : Climbs le start pos heap) (hlt : pos < heap.length)
    (hfuel : pos ≤ fuel) :
    IsHeapFrom le start (siftdown le start fuel pos heap) := by
  induction fuel generalizing pos heap with
  | zero =>
    have hzero : ¬start < pos := by omega
    exact h.stop fun hclimb => hzero hclimb.1
  | succ fuel ih =>
    rw [siftdown]
    split
    · next hclimb =>
      have hparent : parent pos < pos := parent_lt ((Nat.zero_le _).trans_lt hclimb.1)
      refine ih (h.climb hlt hclimb.1 hclimb.2) ?_ (by omega)
      rw [length_swap]
      exact hparent.trans hlt
    · next hstop => exact h.stop hstop

theorem siftup_spec (h : IsHeapFrom le (start + 1) heap) (hlt : start < heap.length) :
    IsHeapFrom le start (siftup le start heap) ∧ (siftup le start heap).Perm heap := by
  have hsinks : Sinks le start start heap := by
    refine ⟨.refl, fun i hi hle _ hne => ?_, fun hne => absurd rfl hne⟩
    exact h i hi (Nat.succ_le_of_lt (lt_of_le_of_ne hle (Ne.symm hne)))
  obtain ⟨hclimbs, hperm, hleaf⟩ := sink_climbs hsinks hlt (Nat.le_add_left _ _)
  rw [siftup]
  exact ⟨siftdown_heapFrom hclimbs hleaf le_rfl, (siftdown_perm _ _ _ _).trans hperm⟩

/-! ### The functions -/

theorem heappush_isHeap (h : IsHeap le heap) (item : α) : IsHeap le (heappush le heap item) := by
  refine siftdown_heapFrom ⟨.zero _, fun i hi _ hne => ?_, fun _ i hi hchild => ?_⟩ ?_ le_rfl
  · intro a ha b hb
    have hlt := (List.getElem?_eq_some_iff.mp hb).1
    rw [List.length_append, List.length_singleton] at hlt
    have hi' : i < heap.length := by omega
    rw [List.getElem?_append_left ((parent_lt hi).trans hi')] at ha
    rw [List.getElem?_append_left hi'] at hb
    exact h i hi (Nat.zero_le _) a ha b hb
  · have hlt := parent_lt hi
    refine inOrder_of_length_le ?_
    rw [List.length_append, List.length_singleton]
    omega
  · rw [List.length_append, List.length_singleton]
    omega

theorem heapify_spec (x : List α) : IsHeap le (heapify le x) ∧ (heapify le x).Perm x := by
  have hleaves : IsHeapFrom le (x.length / 2) x := by
    intro i hi hle
    refine inOrder_of_length_le ?_
    rw [parent] at hle
    omega
  have hstep : ∀ n (y : List α), n ≤ y.length → IsHeapFrom le n y →
      IsHeapFrom le 0 ((List.range n).foldr (siftup le) y) ∧
        ((List.range n).foldr (siftup le) y).Perm y := by
    intro n
    induction n with
    | zero => exact fun y _ hy => ⟨hy, .refl _⟩
    | succ n ih =>
      intro y hlt hy
      rw [List.range_succ, List.foldr_append, List.foldr_cons, List.foldr_nil]
      obtain ⟨hheap, hperm⟩ := siftup_spec hy hlt
      obtain ⟨hheap', hperm'⟩ := ih _ (hperm.length_eq ▸ Nat.le_of_succ_le hlt) hheap
      exact ⟨hheap', hperm'.trans hperm⟩
  exact hstep _ x (Nat.div_le_self _ _) hleaves

theorem heapify_isHeap (x : List α) : IsHeap le (heapify le x) := (heapify_spec x).1

theorem heapify_perm (x : List α) : (heapify le x).Perm x := (heapify_spec x).2

/-- What is taken from a heap is its first item. -/
theorem heappop_spec (h : IsHeap le heap) {a : α} {rest : List α}
    (hpop : heappop le heap = some (a, rest)) :
    a ∈ heap.head? ∧ heap.Perm (a :: rest) ∧ IsHeap le rest := by
  rcases List.eq_nil_or_concat' heap with rfl | ⟨init, last, rfl⟩
  · cases hpop
  rw [heappop, List.dropLast_concat, List.getLast?_concat] at hpop
  cases init with
  | nil =>
    obtain ⟨rfl, rfl⟩ := Prod.mk.inj (Option.some.inj hpop)
    exact ⟨rfl, .refl _, .nil⟩
  | cons top init =>
    obtain ⟨rfl, rfl⟩ := Prod.mk.inj (Option.some.inj hpop)
    have hbelow : IsHeapFrom le 1 (last :: init) := by
      intro i hi hle a ha b hb
      have hparent := parent_lt hi
      have hlt := (List.getElem?_eq_some_iff.mp hb).1
      have hold : ∀ k, 1 ≤ k → k < (last :: init).length →
        (top :: init ++ [last])[k]? = (last :: init)[k]? := by
        intro k hk hklt
        obtain ⟨k, rfl⟩ := Nat.exists_eq_succ_of_ne_zero (Nat.one_le_iff_ne_zero.mp hk)
        rw [List.cons_append, List.getElem?_cons_succ, List.getElem?_cons_succ]
        exact List.getElem?_append_left (Nat.lt_of_succ_lt_succ hklt)
      exact h i hi (Nat.zero_le _) a (hold _ hle (hparent.trans hlt) ▸ ha) b (hold i hi hlt ▸ hb)
    obtain ⟨hheap, hperm⟩ := siftup_spec hbelow (Nat.zero_lt_succ _)
    refine ⟨rfl, ?_, hheap⟩
    rw [List.cons_append]
    exact ((List.perm_append_singleton last init).trans hperm.symm).cons top

end Heapq

end OpenQSP
