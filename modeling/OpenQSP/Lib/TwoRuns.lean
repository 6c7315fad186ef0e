import OpenQSP.Lib.Method

/-!
# Two runs of a method

Who observes only what a method returns learns nothing about the part of the state that does not
influence it. `m.Agrees R m'` says so for two methods, which need not be the same one because a
method that has read the state continues with what it read: from states that `R` relates they end in
the same way, in states that `R` relates again. The rules follow the shape of a method, and `>>=`
needs nothing but the rule itself.

## Main definitions

* `Method.Agrees`

## Main results

* `Agrees.bind`, `Agrees.get_bind`, `Agrees.mapM`
-/

namespace OpenQSP

namespace Method

variable {ε σ α β : Type} {R : σ → σ → Prop}

/-- From related states, both methods return the same value or raise the same exception, and leave
related states. -/
def Agrees (R : σ → σ → Prop) (m m' : Method ε σ α) : Prop :=
  ∀ s s', R s s' → (m.run s).1 = (m'.run s').1 ∧ R (m.run s).2 (m'.run s').2

namespace Agrees

variable {m m' : Method ε σ α}

theorem pure (a : α) : Agrees R (Pure.pure a : Method ε σ α) (Pure.pure a) := fun _ _ h => ⟨rfl, h⟩

theorem raise (e : ε) : Agrees R (Method.raise e : Method ε σ α) (Method.raise e) :=
  fun _ _ h => ⟨rfl, h⟩

theorem ofExcept (x : Except ε α) : Agrees R (Method.ofExcept x : Method ε σ α)
    (Method.ofExcept x) := by
  intro s s' h
  rw [run_ofExcept, run_ofExcept]
  exact ⟨rfl, h⟩

theorem ite {p : Prop} [Decidable p] {n n' : Method ε σ α} (h : Agrees R m m')
    (h' : Agrees R n n') :
    Agrees R (if p then m else n) (if p then m' else n') := by
  by_cases hp : p
  · simpa only [if_pos hp] using h
  · simpa only [if_neg hp] using h'

/-- What each of them read is related. -/
theorem get_bind {f f' : σ → Method ε σ β} (h : ∀ s s', R s s' → Agrees R (f s) (f' s')) :
    Agrees R ((get : Method ε σ σ) >>= f) ((get : Method ε σ σ) >>= f') :=
  fun s s' hs => h s s' hs s s' hs

theorem bind {f f' : α → Method ε σ β} (h : Agrees R m m') (hf : ∀ a, Agrees R (f a) (f' a)) :
    Agrees R (m >>= f) (m' >>= f') := by
  intro s s' hs
  obtain ⟨houtcome, hstate⟩ := h s s' hs
  rw [run_bind, run_bind]
  rcases hrun : m.run s with ⟨e | a, s₁⟩
  · rcases hrun' : m'.run s' with ⟨e' | a', s₁'⟩
    · rw [hrun, hrun'] at houtcome hstate
      obtain rfl := Except.error.inj houtcome
      exact ⟨rfl, hstate⟩
    · rw [hrun, hrun'] at houtcome
      cases houtcome
  · rcases hrun' : m'.run s' with ⟨e' | a', s₁'⟩
    · rw [hrun, hrun'] at houtcome
      cases houtcome
    · rw [hrun, hrun'] at houtcome hstate
      obtain rfl := Except.ok.inj houtcome
      exact hf a s₁ s₁' hstate

theorem mapM {f f' : β → Method ε σ α} (h : ∀ b, Agrees R (f b) (f' b)) :
    ∀ l : List β, Agrees R (l.mapM f) (l.mapM f')
  | [] => pure []
  | b :: l => by
    rw [List.mapM_cons, List.mapM_cons]
    exact bind (h b) fun _ => bind (mapM h l) fun _ => pure _

/-- A change that keeps the relation. -/
theorem modify {g g' : σ → σ} (h : ∀ s s', R s s' → R (g s) (g' s')) :
    Agrees R (modify g : Method ε σ PUnit) (modify g') := fun s s' hs => ⟨rfl, h s s' hs⟩

end Agrees

end Method

end OpenQSP
