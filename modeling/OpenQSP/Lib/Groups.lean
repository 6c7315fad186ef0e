import Mathlib.Data.List.Dedup
import Mathlib.Data.List.Sort

/-!
# The greatest row of each group

A query finds the last row of every group in two steps: it lists the groups with the greatest
position that occurs in each, and joins the rows to this list. When no two rows share a position,
the join has exactly one row for each group, the greatest one.

## Main definitions

* `groupMax` — the groups with their greatest positions
* `joinMax` — the rows of the join

## Main results

* `mem_joinMax` — the rows of the join are the greatest of their groups
* `map_group_joinMax` — there is one for each group
-/

namespace OpenQSP

variable {α κ : Type} [DecidableEq κ] (group : α → κ) (position : α → ℕ) (rows : List α)

/-- `SELECT group, MAX(position) FROM rows GROUP BY group` -/
def groupMax : List (κ × ℕ) := (rows.map group).dedup.map fun k =>
  (k, ((rows.filter fun a => group a = k).map position).max?.getD 0)

/-- The rows joined to the greatest positions of their groups. -/
def joinMax : List α := (groupMax group position rows).flatMap fun g =>
  rows.filter fun a => group a = g.1 && position a = g.2

variable {group position rows}

/-- The greatest position of a group is that of one of its rows. -/
theorem mem_groupMax {g : κ × ℕ} : g ∈ groupMax group position rows ↔
    ∃ a ∈ rows, group a = g.1 ∧ position a = g.2 ∧ ∀ b ∈ rows, group b = g.1 →
      position b ≤ g.2 := by
  have hmax : ∀ k, k ∈ (rows.map group).dedup → ∃ a ∈ rows, group a = k ∧
      position a = ((rows.filter fun a => group a = k).map position).max?.getD 0 ∧
      ∀ b ∈ rows, group b = k →
        position b ≤ ((rows.filter fun a => group a = k).map position).max?.getD 0 := by
    intro k hk
    obtain ⟨c, hc, hgroup⟩ := List.mem_map.mp (List.mem_dedup.mp hk)
    have hmem : c ∈ rows.filter fun a => group a = k :=
      List.mem_filter.mpr ⟨hc, decide_eq_true hgroup⟩
    rcases hmax : ((rows.filter fun a => group a = k).map position).max? with _ | m
    · rw [List.max?_eq_none_iff, List.map_eq_nil_iff] at hmax
      rw [hmax] at hmem
      cases hmem
    · obtain ⟨hm, hle⟩ := List.max?_eq_some_iff.mp hmax
      obtain ⟨a, ha, hposition⟩ := List.mem_map.mp hm
      rw [List.mem_filter, decide_eq_true_eq] at ha
      refine ⟨a, ha.1, ha.2, hposition, fun b hb hbk => hle _ (List.mem_map_of_mem ?_)⟩
      exact List.mem_filter.mpr ⟨hb, decide_eq_true hbk⟩
  constructor
  · intro hg
    obtain ⟨k, hk, rfl⟩ := List.mem_map.mp hg
    exact hmax k hk
  · rintro ⟨a, ha, hgroup, hposition, hle⟩
    have hk : g.1 ∈ (rows.map group).dedup := List.mem_dedup.mpr (hgroup ▸ List.mem_map_of_mem ha)
    obtain ⟨b, hb, hbgroup, hbposition, hble⟩ := hmax g.1 hk
    refine List.mem_map.mpr ⟨g.1, hk, Prod.ext rfl (le_antisymm ?_ ?_)⟩
    · rw [← hbposition]
      exact hle b hb hbgroup
    · rw [← hposition]
      exact hble a ha hgroup

/-- The rows of the join are the greatest of their groups. -/
theorem mem_joinMax {a : α} : a ∈ joinMax group position rows ↔
    a ∈ rows ∧ ∀ b ∈ rows, group b = group a → position b ≤ position a := by
  simp only [joinMax, List.mem_flatMap, List.mem_filter, Bool.and_eq_true, decide_eq_true_eq]
  constructor
  · rintro ⟨⟨k, m⟩, hg, ha, rfl, rfl⟩
    obtain ⟨-, -, -, -, hle⟩ := mem_groupMax.mp hg
    exact ⟨ha, hle⟩
  · rintro ⟨ha, hle⟩
    exact ⟨(group a, position a), mem_groupMax.mpr ⟨a, ha, rfl, rfl, hle⟩, ha, rfl, rfl⟩

/-- There is one row for each group. -/
theorem map_group_joinMax (h : (rows.map position).Nodup) :
    (joinMax group position rows).map group = (rows.map group).dedup := by
  have hone : ∀ g ∈ groupMax group position rows,
      (rows.filter fun a => group a = g.1 && position a = g.2).map group = [g.1] := by
    intro g hg
    obtain ⟨a, ha, hgroup, hposition, -⟩ := mem_groupMax.mp hg
    have hsingle : (rows.filter fun a => group a = g.1 && position a = g.2).Perm [a] := by
      refine (List.perm_ext_iff_of_nodup (h.of_map.filter _) (List.nodup_singleton a)).mpr
        fun b => ?_
      simp only [List.mem_filter, Bool.and_eq_true, decide_eq_true_eq, List.mem_singleton]
      constructor
      · rintro ⟨hb, -, hbposition⟩
        exact List.inj_on_of_nodup_map h hb ha (hbposition.trans hposition.symm)
      · rintro rfl
        exact ⟨ha, hgroup, hposition⟩
    rw [List.perm_singleton.mp hsingle, List.map_singleton, hgroup]
  rw [joinMax, List.map_flatMap, List.flatMap_congr hone, groupMax]
  simp [List.flatMap_map]

/-- The rows of the join have distinct positions. -/
theorem nodup_position_joinMax (h : (rows.map position).Nodup) :
    ((joinMax group position rows).map position).Nodup := by
  have hgroups : ((joinMax group position rows).map group).Nodup := by
    rw [map_group_joinMax h]
    exact List.nodup_dedup _
  refine List.Nodup.map_on (fun a ha b hb heq => ?_) hgroups.of_map
  exact List.inj_on_of_nodup_map h (mem_joinMax.mp ha).1 (mem_joinMax.mp hb).1 heq

end OpenQSP
