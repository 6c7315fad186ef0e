import Mathlib.Data.List.Basic

/-!
# Traces of a labelled system

A system moves from state to state, and a move may emit a label that somebody outside can see. A
trace is a sequence of moves with the labels they emitted, in their order. A claim about
everything that was ever emitted is an invariant of the emitted labels and the state together.

## Main definitions

* `Trace` — the moves from one state to another, with what they emit
* `Silent` — moves that emit nothing

## Main results

* `Trace.trans`
* `Trace.invariant`, `Trace.since`, `Trace.keeps` — an invariant of labels and state that every move
  keeps
-/

namespace OpenQSP

section Trace

variable {σ ε : Type} (move : σ → Option ε → σ → Prop)

/-- Some moves lead from one state to another and emit the labels of the list. -/
inductive Trace : σ → List ε → σ → Prop
  | refl (s : σ) : Trace s [] s
  | snoc {s s' s'' : σ} {log : List ε} {e : Option ε} (before : Trace s log s')
      (last : move s' e s'') : Trace s (log ++ e.toList) s''

/-- Some moves lead from one state to another and emit nothing. -/
def Silent (s s' : σ) : Prop := Trace move s [] s'

variable {move} {s s' s'' : σ} {log log' : List ε}

theorem Trace.single {e : Option ε} (h : move s e s') : Trace move s e.toList s' :=
  (Trace.refl s).snoc h

theorem Trace.trans (h : Trace move s log s') (h' : Trace move s' log' s'') :
    Trace move s (log ++ log') s'' := by
  induction h' with
  | refl =>
    rw [List.append_nil]
    exact h
  | snoc _ last ih =>
    rw [← List.append_assoc]
    exact ih.snoc last

theorem Silent.single (h : move s none s') : Silent move s s' := Trace.single h

theorem Silent.trace (h : Silent move s s') : Trace move s [] s' := h

/-- Silent moves first do not show. -/
theorem Silent.trans_trace (h : Silent move s s') (h' : Trace move s' log s'') :
    Trace move s log s'' := Trace.trans h h'

/-- Silent moves last do not show. -/
theorem Trace.trans_silent (h : Trace move s log s') (h' : Silent move s' s'') :
    Trace move s log s'' := by
  have htrace := h.trans h'
  rwa [List.append_nil] at htrace

instance : IsPreorder σ (Silent move) where
  refl s := Trace.refl s
  trans _ _ _ h h' := Silent.trans_trace h h'

/-- An invariant of what was emitted and of the state that every move keeps. -/
theorem Trace.invariant {I : List ε → σ → Prop} (h₀ : I log' s)
    (hmove : ∀ log s e s', I log s → move s e s' → I (log ++ e.toList) s')
    (h : Trace move s log s') : I (log' ++ log) s' := by
  induction h with
  | refl =>
    rw [List.append_nil]
    exact h₀
  | snoc _ last ih =>
    rw [← List.append_assoc]
    exact hmove _ _ _ _ ih last

/-- An invariant of what was emitted since the first state. -/
theorem Trace.since {I : List ε → σ → Prop} (h₀ : I [] s)
    (hmove : ∀ log s e s', I log s → move s e s' → I (log ++ e.toList) s')
    (h : Trace move s log s') : I log s' := h.invariant h₀ hmove

/-- An invariant of the state alone. -/
theorem Trace.keeps {I : σ → Prop} (h₀ : I s) (hmove : ∀ s e s', I s → move s e s' → I s')
    (h : Trace move s log s') : I s' := h.since (I := fun _ s => I s) h₀ fun _ => hmove

end Trace

end OpenQSP
