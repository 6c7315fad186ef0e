import Mathlib.Data.List.Basic

/-!
# Runs of a system

A system takes one step for each call of a list. `stateAt step s calls i` is the state after the
first `i` calls. Everything said about a run is said about these states: an invariant holds in all
of them when the first one has it and each step of the run keeps it, and a preorder relates any two
of them, in their order, when it relates each to the next.

## Main definitions

* `stateAt`
* `LastBefore` — the last time before a given one that something happened

## Main results

* `stateAt_succ`
* `stateAt_invariant` — an invariant that the steps of this run keep
* `stateAt_rel` — a preorder that the steps of this run follow
* `LastBefore.now`, `LastBefore.later` — how the last time changes with one more call
-/

namespace OpenQSP

section Runs

variable {σ ι : Type} (step : σ → ι → σ) (s : σ) (calls : List ι)

/-- The state after the first `i` calls. -/
def stateAt (i : ℕ) : σ := (calls.take i).foldl step s

@[simp] theorem stateAt_zero : stateAt step s calls 0 = s := rfl

theorem stateAt_length : stateAt step s calls calls.length = calls.foldl step s := by
  rw [stateAt, List.take_length]

variable {step s calls}

theorem stateAt_succ {i : ℕ} (h : i < calls.length) :
    stateAt step s calls (i + 1) = step (stateAt step s calls i) calls[i] := by
  rw [stateAt, stateAt, List.take_add_one, List.getElem?_eq_getElem h, Option.toList_some,
    List.foldl_append]
  rfl

/-- The first calls of a longer run make the same states. -/
theorem stateAt_append {calls' : List ι} {i : ℕ} (h : i ≤ calls.length) :
    stateAt step s (calls ++ calls') i = stateAt step s calls i := by
  rw [stateAt, stateAt, List.take_append_of_le_length h]

/-- An invariant of the first state that every step of the run keeps holds in every state. -/
theorem stateAt_invariant {I : σ → Prop} (h₀ : I s)
    (hstep : ∀ i (h : i < calls.length), I (stateAt step s calls i) →
      I (step (stateAt step s calls i) calls[i])) :
    ∀ i ≤ calls.length, I (stateAt step s calls i) := by
  intro i
  induction i with
  | zero => exact fun _ => h₀
  | succ i ih =>
    intro hi
    rw [stateAt_succ hi]
    exact hstep i hi (ih (Nat.le_of_succ_le hi))

/-- A preorder that every step from `i` on follows relates the states from `i` on. -/
theorem stateAt_rel {R : σ → σ → Prop} (hrefl : ∀ s, R s s)
    (htrans : ∀ s s' s'', R s s' → R s' s'' → R s s'') {i : ℕ}
    (hstep : ∀ k (h : k < calls.length), i ≤ k →
      R (stateAt step s calls k) (step (stateAt step s calls k) calls[k])) {j : ℕ}
    (hij : i ≤ j) (hj : j ≤ calls.length) : R (stateAt step s calls i)
      (stateAt step s calls j) := by
  induction hij with
  | refl => exact hrefl _
  | step hij ih =>
    rw [Nat.succ_eq_add_one, stateAt_succ hj]
    exact htrans _ _ _ (ih (Nat.le_of_succ_le hj)) (hstep _ hj hij)

end Runs

/-! ### The last time -/

/-- `j` is the last time before `i` at which `P` held. -/
structure LastBefore (P : ℕ → Prop) (i j : ℕ) : Prop where
  before : j < i
  holds : P j
  since : ∀ m, j < m → m < i → ¬P m

namespace LastBefore

variable {P : ℕ → Prop} {i j j' : ℕ}

/-- It holds now. -/
theorem now (h : P i) : LastBefore P (i + 1) i :=
  ⟨Nat.lt_succ_self i, h, fun m him hmi => by omega⟩

/-- It does not hold now. -/
theorem later (h : LastBefore P i j) (hnot : ¬P i) : LastBefore P (i + 1) j := by
  refine ⟨Nat.lt_succ_of_lt h.before, h.holds, fun m hjm hmi => ?_⟩
  rcases Nat.lt_succ_iff_lt_or_eq.mp hmi with hmi | rfl
  · exact h.since m hjm hmi
  · exact hnot

theorem of_succ (h : LastBefore P (i + 1) j) : P i ∧ j = i ∨ LastBefore P i j ∧ ¬P i := by
  rcases Nat.lt_succ_iff_lt_or_eq.mp h.before with hji | rfl
  · exact .inr ⟨⟨hji, h.holds, fun m hjm hmi => h.since m hjm (Nat.lt_succ_of_lt hmi)⟩,
      h.since i hji (Nat.lt_succ_self i)⟩
  · exact .inl ⟨h.holds, rfl⟩

theorem unique (h : LastBefore P i j) (h' : LastBefore P i j') : j = j' := by
  rcases Nat.lt_trichotomy j j' with hlt | heq | hlt
  · exact absurd h'.holds (h.since j' hlt h'.before)
  · exact heq
  · exact absurd h.holds (h'.since j hlt h.before)

/-- What happened before happened a last time. -/
theorem exists_of_before (h : ∃ m < i, P m) : ∃ j, LastBefore P i j := by
  induction i with
  | zero => exact absurd h (fun ⟨m, hm, _⟩ => Nat.not_lt_zero m hm)
  | succ i ih =>
    by_cases hi : P i
    · exact ⟨i, now hi⟩
    · obtain ⟨m, hm, hP⟩ := h
      have hne : m ≠ i := fun hmi => hi (hmi ▸ hP)
      obtain ⟨j, hj⟩ := ih ⟨m, by omega, hP⟩
      exact ⟨j, hj.later hi⟩

end LastBefore

end OpenQSP
