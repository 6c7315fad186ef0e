import Mathlib.Algebra.Order.Group.Int
import Mathlib.Data.List.Forall2
import Mathlib.Order.Basic

/-!
# Logs and their readers

A log is a list whose items have increasing positions. It grows at its end. A reader has a cursor
and asks for the next items beyond it, a page at a time; the position of the last item of a page is
its next cursor. What such a reader has received is exactly the segment of the log between its first
cursor and its present one, in order, and this stays true while the log grows behind it.

The position of an item may also be counted: among the items of an increasing log, as many lie at
or before item `i` as its index says.

## Main definitions

* `Ascending`, `beyond`, `segment`, `page`, `cursorAfter`
* `Contiguous` — the items are numbered from one
* `Reader`, `Reader.Complete` — the reader has received the segment up to its cursor

## Main results

* `page_eq_segment`, `segment_append_segment`, `segment_append`
* `lt_length_page_iff` — one item more than a page tells whether there are more
* `Contiguous.ascending`, `Contiguous.lt_later`
* `Reader.Complete.advance`, `Reader.Complete.skip`, `Reader.Complete.grow`, `Reader.Complete.all`
* `countP_le_getElem` — counting is numbering
-/

namespace OpenQSP

section Cursor

variable {α π : Type} (position : α → π)

/-- The cursor after a page. -/
def cursorAfter (since : π) (items : List α) : π := (items.getLast?.map position).getD since

variable {position} {since : π} {items : List α}

@[simp] theorem cursorAfter_nil : cursorAfter position since [] = since := rfl

@[simp] theorem cursorAfter_concat (a : α) :
    cursorAfter position since (items ++ [a]) = position a := by
  rw [cursorAfter, List.getLast?_concat]
  rfl

/-- The cursor after a page is where the reader was, or the position of an item. -/
theorem cursorAfter_eq_or (position : α → π) (since : π) (items : List α) :
    cursorAfter position since items = since ∨
      ∃ a ∈ items, cursorAfter position since items = position a := by
  rcases List.eq_nil_or_concat' items with rfl | ⟨init, b, rfl⟩
  · exact .inl rfl
  · exact .inr ⟨b, List.mem_append_right _ (List.mem_singleton_self b), cursorAfter_concat b⟩

/-- Only the positions of the items matter. -/
theorem cursorAfter_congr {β : Type} {position' : β → π} {items' : List β}
    (h : List.Forall₂ (fun a b => position a = position' b) items items') :
    cursorAfter position since items = cursorAfter position' since items' := by
  have hmap : items.map position = items'.map position' := by
    induction h with
    | nil => rfl
    | cons hab _ ih => rw [List.map_cons, List.map_cons, hab, ih]
  rw [cursorAfter, cursorAfter, ← List.getLast?_map, ← List.getLast?_map, hmap]

end Cursor

section Log

variable {α π : Type} [LinearOrder π] (position : α → π)

/-- The positions of the items increase. -/
def Ascending (log : List α) : Prop := log.Pairwise fun a b => position a < position b

/-- The items beyond a cursor. -/
def beyond (log : List α) (since : π) : List α := log.filter fun a => since < position a

/-- The items beyond `since`, up to and including `last`. -/
def segment (log : List α) (since last : π) : List α :=
  log.filter fun a => since < position a ∧ position a ≤ last

/-- The next `n` items beyond a cursor. -/
def page (log : List α) (since : π) (n : ℕ) : List α := (beyond position log since).take n

variable {position} {log later items : List α} {since mid last : π} {n : ℕ}

theorem Ascending.sublist (h : Ascending position log) (hsub : items.Sublist log) :
    Ascending position items := List.Pairwise.sublist hsub h

theorem Ascending.beyond (h : Ascending position log) :
    Ascending position (beyond position log since) :=
  h.sublist List.filter_sublist

theorem mem_beyond {a : α} : a ∈ beyond position log since ↔ a ∈ log ∧ since < position a := by
  rw [OpenQSP.beyond, List.mem_filter, decide_eq_true_eq]

theorem mem_segment {a : α} :
    a ∈ segment position log since last ↔ a ∈ log ∧ since < position a ∧ position a ≤ last := by
  rw [segment, List.mem_filter, decide_eq_true_eq]

/-! ### The cursor after a page -/

/-- No item of a page is beyond its last one. -/
theorem le_cursorAfter (h : Ascending position items) (since : π) {a : α} (ha : a ∈ items) :
    position a ≤ cursorAfter position since items := by
  rcases List.eq_nil_or_concat' items with rfl | ⟨init, b, rfl⟩
  · cases ha
  · rw [cursorAfter_concat]
    rcases List.mem_append.mp ha with ha | ha
    · exact ((List.pairwise_append.mp h).2.2 a ha b (List.mem_singleton_self b)).le
    · rw [List.mem_singleton.mp ha]

/-- What follows a page is beyond the cursor after it. -/
theorem cursorAfter_lt (h : Ascending position (items ++ later))
    (hlater : ∀ a ∈ later, since < position a) {a : α} (ha : a ∈ later) :
    cursorAfter position since items < position a := by
  rcases List.eq_nil_or_concat' items with rfl | ⟨init, b, rfl⟩
  · exact hlater a ha
  · rw [cursorAfter_concat]
    exact (List.pairwise_append.mp h).2.2 b (List.mem_append_right _
      (List.mem_singleton_self b)) a ha

/-- A cursor does not go backwards. -/
theorem self_le_cursorAfter (h : ∀ a ∈ items, since < position a) :
    since ≤ cursorAfter position since items := by
  rcases List.eq_nil_or_concat' items with rfl | ⟨init, b, rfl⟩
  · exact le_rfl
  · rw [cursorAfter_concat]
    exact (h b (List.mem_append_right _ (List.mem_singleton_self b))).le

/-! ### Pages and segments -/

theorem page_subset_beyond {a : α} (ha : a ∈ page position log since n) :
    a ∈ log ∧ since < position a := mem_beyond.mp (List.mem_of_mem_take ha)

theorem self_le_cursorAfter_page :
    since ≤ cursorAfter position since (page position log since n) :=
  self_le_cursorAfter fun _ ha => (page_subset_beyond ha).2

/-- A page is the segment up to the cursor after it. -/
theorem page_eq_segment (h : Ascending position log) (since : π) (n : ℕ) :
    page position log since n =
      segment position log since (cursorAfter position since (page position log since n)) := by
  have hsplit := List.take_append_drop n (beyond position log since)
  have hbeyond : Ascending position (page position log since n ++
    (beyond position log since).drop n) := by
    rw [page, hsplit]
    exact h.beyond
  generalize hcursor : cursorAfter position since (page position log since n) = cursor
  have hfilter : segment position log since cursor =
      (beyond position log since).filter fun a => position a ≤ cursor := by
    rw [beyond, List.filter_filter, segment]
    exact List.filter_congr fun a _ => by rw [Bool.and_comm, Bool.decide_and]
  have hpage : (page position log since n).filter (fun a => position a ≤ cursor) =
      page position log since n := by
    refine List.filter_eq_self.mpr fun a ha => decide_eq_true ?_
    rw [← hcursor]
    exact le_cursorAfter (hbeyond.sublist (List.sublist_append_left _ _)) since ha
  have hrest : ((beyond position log since).drop n).filter (fun a => position a ≤ cursor) = [] := by
    refine List.filter_eq_nil_iff.mpr fun a ha => ?_
    rw [decide_eq_true_eq, not_le, ← hcursor]
    exact cursorAfter_lt hbeyond (fun b hb => (mem_beyond.mp (List.mem_of_mem_drop hb)).2) ha
  rw [hfilter, ← hsplit, List.filter_append, hrest, List.append_nil]
  exact hpage.symm

/-- Nothing is beyond a page that is not full. -/
theorem le_cursorAfter_page (h : Ascending position log)
    (hlen : (page position log since n).length < n)
    {a : α} (ha : a ∈ log) : position a ≤ cursorAfter position since
      (page position log since n) := by
  rcases le_or_gt (position a) since with hle | hgt
  · exact hle.trans self_le_cursorAfter_page
  · have hall : page position log since n = beyond position log since := by
      rw [page, List.length_take] at hlen
      exact List.take_of_length_le (by omega)
    rw [hall]
    exact le_cursorAfter h.beyond since (mem_beyond.mpr ⟨ha, hgt⟩)

/-- Two neighbouring segments make one. -/
theorem segment_append_segment (h : Ascending position log) (hmid : since ≤ mid)
    (hlast : mid ≤ last) :
    segment position log since mid ++ segment position log mid last =
      segment position log since last := by
  induction log with
  | nil => rfl
  | cons a log ih =>
    obtain ⟨hhead, htail⟩ := List.pairwise_cons.mp h
    have ih := ih htail
    simp only [segment] at ih ⊢
    by_cases ha : position a ≤ mid
    · have hnot : ¬(mid < position a ∧ position a ≤ last) := fun h => absurd ha (not_le.mpr h.1)
      simp only [List.filter_cons, decide_eq_true_eq, if_neg hnot]
      by_cases hsince : since < position a
      · rw [if_pos ⟨hsince, ha⟩, if_pos ⟨hsince, ha.trans hlast⟩, List.cons_append, ih]
      · rw [if_neg fun h => hsince h.1, if_neg fun h => hsince h.1, ih]
    · -- Everything from here on is beyond `mid`.
      have hnil : (a :: log).filter (fun b => decide (since < position b ∧ position b ≤ mid)) =
        [] := by
        refine List.filter_eq_nil_iff.mpr fun b hb => ?_
        rw [decide_eq_true_eq]
        rintro ⟨-, hle⟩
        rcases List.mem_cons.mp hb with rfl | hb
        · exact ha hle
        · exact ha ((hhead b hb).le.trans hle)
      rw [hnil, List.nil_append]
      refine List.filter_congr fun b hb => ?_
      have hb : mid < position b := by
        rcases List.mem_cons.mp hb with rfl | hb
        · exact not_le.mp ha
        · exact (not_le.mp ha).trans (hhead b hb)
      simp [hb, lt_of_le_of_lt hmid hb]

/-- Items beyond a segment do not change it. -/
theorem segment_append (hlater : ∀ a ∈ later, last < position a) :
    segment position (log ++ later) since last = segment position log since last := by
  have hnil : later.filter (fun a => decide (since < position a ∧ position a ≤ last)) = [] := by
    refine List.filter_eq_nil_iff.mpr fun a ha => ?_
    rw [decide_eq_true_eq]
    exact fun h => absurd h.2 (not_le.mpr (hlater a ha))
  rw [segment, List.filter_append, hnil, List.append_nil]
  rfl

/-- Asking for one item more than a page tells whether there is more. -/
theorem lt_length_page_iff (h : Ascending position log) (since : π) (n : ℕ) :
    n < (page position log since (n + 1)).length ↔
      ∃ a ∈ log, cursorAfter position since (page position log since n) < position a := by
  have hsplit := List.take_append_drop n (beyond position log since)
  have hbeyond : Ascending position (page position log since n ++
    (beyond position log since).drop n) := by
    rw [page, hsplit]
    exact h.beyond
  rw [page, List.length_take]
  constructor
  · intro hlt
    have hpos : n < (beyond position log since).length := by omega
    have hmem : (beyond position log since)[n] ∈ (beyond position log since).drop n := by
      rw [List.drop_eq_getElem_cons hpos]
      exact List.mem_cons_self
    exact ⟨_, (mem_beyond.mp (List.getElem_mem hpos)).1, cursorAfter_lt hbeyond
      (fun b hb => (mem_beyond.mp (List.mem_of_mem_drop hb)).2) hmem⟩
  · rintro ⟨a, ha, hlt⟩
    have hmem : a ∈ beyond position log since :=
      mem_beyond.mpr ⟨ha, lt_of_le_of_lt self_le_cursorAfter_page hlt⟩
    rw [← hsplit] at hmem
    rcases List.mem_append.mp hmem with hpage | hrest
    · have hle := le_cursorAfter (hbeyond.sublist (List.sublist_append_left _ _)) since hpage
      exact absurd hlt (not_lt.mpr hle)
    · have hpos := List.length_pos_of_mem hrest
      rw [List.length_drop] at hpos
      omega

/-! ### Numbered logs -/

section Contiguous

variable (number : α → ℕ)

/-- The items are numbered `1, …, n`. -/
def Contiguous (log : List α) (n : ℕ) : Prop := log.map number = List.range' 1 n

variable {number} {log later : List α} {n n' : ℕ}

theorem Contiguous.ascending (h : Contiguous number log n) :
    Ascending (fun a => (number a : ℤ)) log := by
  have hrange := List.pairwise_lt_range' (s := 1) (n := n)
  rw [← h, List.pairwise_map] at hrange
  exact hrange.imp fun hlt => Int.ofNat_lt.mpr hlt

theorem Contiguous.length_eq (h : Contiguous number log n) : log.length = n := by
  have hlen := congrArg List.length h
  rwa [List.length_map, List.length_range'] at hlen

theorem Contiguous.mem_iff (h : Contiguous number log n) (k : ℕ) :
    (∃ a ∈ log, number a = k) ↔ 1 ≤ k ∧ k ≤ n := by
  rw [← List.mem_map, h, List.mem_range'_1]
  omega

theorem Contiguous.le (h : Contiguous number log n) {a : α} (ha : a ∈ log) :
    1 ≤ number a ∧ number a ≤ n := (h.mem_iff (number a)).mp ⟨a, ha, rfl⟩

/-- What a numbered log grows by has higher numbers. -/
theorem Contiguous.lt_later (h : Contiguous number log n) (h' : Contiguous number (log ++ later) n')
    {a : α} (ha : a ∈ later) : n < number a := by
  have hmem := h'.le (List.mem_append_right log ha)
  by_contra hle
  obtain ⟨b, hb, hnumber⟩ := (h.mem_iff (number a)).mpr ⟨hmem.1, Nat.le_of_not_lt hle⟩
  have hlt : (number b : ℤ) < number a := (List.pairwise_append.mp h'.ascending).2.2 b hb a ha
  rw [hnumber] at hlt
  exact absurd hlt (lt_irrefl _)

end Contiguous

/-! ### Readers -/

/-- A reader of a log: its cursor, and what it has received. -/
structure Reader (α π : Type) where
  cursor : π
  items : List α

namespace Reader

variable {first : π} {r : Reader α π}

/-- The reader has received exactly the segment from its first cursor to its present one. -/
structure Complete (position : α → π) (first : π) (log : List α) (r : Reader α π) : Prop where
  first_le : first ≤ r.cursor
  items_eq : r.items = segment position log first r.cursor

/-- A reader that has received nothing yet. -/
theorem Complete.initial (position : α → π) (first : π) (log : List α) :
    (⟨first, []⟩ : Reader α π).Complete position first log where
  first_le := le_rfl
  items_eq := by
    symm
    refine List.filter_eq_nil_iff.mpr fun a _ => ?_
    rw [decide_eq_true_eq]
    exact fun h => absurd h.1 (not_lt.mpr h.2)

/-- The reader receives a page. -/
theorem Complete.advance (h : r.Complete position first log) (hlog : Ascending position log)
    (n : ℕ) :
    (⟨cursorAfter position r.cursor (page position log r.cursor n),
      r.items ++ page position log r.cursor n⟩ : Reader α π).Complete position first log where
  first_le := h.first_le.trans self_le_cursorAfter_page
  items_eq := by
    rw [h.items_eq]
    conv_lhs => rw [page_eq_segment hlog r.cursor n]
    exact segment_append_segment hlog h.first_le self_le_cursorAfter_page

/-- The reader moves its cursor over a part of the log that has no items. -/
theorem Complete.skip (h : r.Complete position first log) {cursor : π} (hle : r.cursor ≤ cursor)
    (hgap : ∀ a ∈ log, r.cursor < position a → cursor < position a) :
    (⟨cursor, r.items⟩ : Reader α π).Complete position first log where
  first_le := h.first_le.trans hle
  items_eq := by
    rw [h.items_eq]
    refine List.filter_congr fun a ha => decide_eq_decide.mpr ⟨fun hs => ⟨hs.1, hs.2.trans hle⟩, ?_⟩
    rintro ⟨hs, hc⟩
    exact ⟨hs, le_of_not_gt fun hlt => absurd (hgap a ha hlt) (not_lt.mpr hc)⟩

/-- The log grows. -/
theorem Complete.grow (h : r.Complete position first log) (hlater : ∀ a ∈ later,
    r.cursor < position a) :
    r.Complete position first (log ++ later) where
  first_le := h.first_le
  items_eq := by rw [h.items_eq, segment_append hlater]

/-- A reader at the end of the log has received all of it. -/
theorem Complete.all (h : r.Complete position first log) (hfirst : ∀ a ∈ log, first < position a)
    (hend : ∀ a ∈ log, position a ≤ r.cursor) : r.items = log := by
  rw [h.items_eq]
  exact List.filter_eq_self.mpr fun a ha => decide_eq_true ⟨hfirst a ha, hend a ha⟩

end Reader

/-! ### Numbering -/

/-- The number of items at or before an item is its index, counted from one. -/
theorem countP_le_getElem (h : Ascending position log) {i : ℕ} (hi : i < log.length) :
    log.countP (fun a => position a ≤ position log[i]) = i + 1 := by
  induction log generalizing i with
  | nil => exact absurd hi (Nat.not_lt_zero i)
  | cons a log ih =>
    obtain ⟨hhead, htail⟩ := List.pairwise_cons.mp h
    cases i with
    | zero =>
      have hzero : log.countP (fun b => decide (position b ≤ position a)) = 0 :=
        List.countP_eq_zero.mpr fun b hb => by simpa using hhead b hb
      rw [List.getElem_cons_zero, List.countP_cons_of_pos (by simp), hzero]
    | succ i =>
      have hi' : i < log.length := Nat.lt_of_succ_lt_succ hi
      rw [List.getElem_cons_succ,
        List.countP_cons_of_pos (by simpa using (hhead _ (List.getElem_mem hi')).le), ih htail hi']

end Log

end OpenQSP
