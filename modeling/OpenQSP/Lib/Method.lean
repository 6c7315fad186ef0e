import Mathlib.Data.List.Forall2
import Mathlib.Order.Defs.Unbundled

/-!
# Methods: stateful computations that may raise

A method of a mutable object reads and writes the object's state and either returns a value or
raises. What it wrote before raising stays written; nothing is rolled back unless the method does
it itself. `Method ε σ α` is exactly that: from a state it yields an outcome and a state, whichever
way it ended.

## Reasoning

Three kinds of statement are enough for everything built on this file.

* `m.Moves R`: every run of `m`, *whether it returns or raises*, relates its first and last state
  by `R`. For a preorder `R` this composes along `>>=`, so a claim about a long method follows
  from the claim about each primitive it calls, with no case analysis on where it raised.
* `m.Yields s P`: the outcome and the last state of the run from `s` satisfy `P`. Its rule for `>>=`
  asks what happens when the first method returns and when it raises.
* `m.run_bind`, `run_pure` and the other `run` equations, for evaluating a method when the outcome
  of its parts is known.

## Main definitions

* `Method`, `Method.run`
* `Method.Yields`
* `Method.Moves`, and `Keeps`, the relation "this projection did not change"

## Main results

* `Moves.bind`, `Moves.ite`, `Moves.modify`, `Moves.forM`, `Moves.mono`
* `Yields.bind`, `Yields.bind_of_moves`, `Yields.mono`
-/

namespace OpenQSP

/-- A computation on a state `σ` that returns an `α` or raises an `ε`. -/
structure Method (ε σ α : Type) where
  /-- Run the method: its outcome, and the state it leaves. -/
  run : σ → Except ε α × σ

namespace Method

variable {ε σ α β : Type}

instance : Monad (Method ε σ) where
  pure a := ⟨fun s => (.ok a, s)⟩
  bind m f := ⟨fun s =>
    match m.run s with
    | (.ok a, s') => (f a).run s'
    | (.error e, s') => (.error e, s')⟩

instance : MonadStateOf σ (Method ε σ) where
  get := ⟨fun s => (.ok s, s)⟩
  set s := ⟨fun _ => (.ok (), s)⟩
  modifyGet f := ⟨fun s => (.ok (f s).1, (f s).2)⟩

/-- Raise `e`. -/
def raise (e : ε) : Method ε σ α := ⟨fun s => (.error e, s)⟩

/-- Continue with a pure computation that may raise. -/
def ofExcept : Except ε α → Method ε σ α
  | .ok a => pure a
  | .error e => raise e

/-- Handle what `m` raises. What `m` wrote before raising stays written. -/
def catchError (m : Method ε σ α) (handler : ε → Method ε σ α) : Method ε σ α := ⟨fun s =>
  match m.run s with
  | (.ok a, s') => (.ok a, s')
  | (.error e, s') => (handler e).run s'⟩

/-- Run `m` only if `p` holds. -/
def when (p : Prop) [Decidable p] (m : Method ε σ Unit) : Method ε σ Unit :=
  if p then m else pure ()

@[simp] theorem run_pure (a : α) (s : σ) : (pure a : Method ε σ α).run s = (.ok a, s) := rfl

theorem run_bind (m : Method ε σ α) (f : α → Method ε σ β) (s : σ) :
    (m >>= f).run s = match m.run s with
      | (.ok a, s') => (f a).run s'
      | (.error e, s') => (.error e, s') := rfl

theorem run_bind_of_ok {m : Method ε σ α} {s s' : σ} {a : α} (h : m.run s = (.ok a, s'))
    (f : α → Method ε σ β) : (m >>= f).run s = (f a).run s' := by rw [run_bind, h]

theorem run_bind_of_error {m : Method ε σ α} {s s' : σ} {e : ε} (h : m.run s = (.error e, s'))
    (f : α → Method ε σ β) : (m >>= f).run s = (.error e, s') := by rw [run_bind, h]

@[simp] theorem run_get_bind (f : σ → Method ε σ β) (s : σ) :
    ((get : Method ε σ σ) >>= f).run s = (f s).run s := rfl

@[simp] theorem run_modify_bind (g : σ → σ) (f : PUnit → Method ε σ β) (s : σ) :
    ((modify g : Method ε σ PUnit) >>= f).run s = (f ⟨⟩).run (g s) := rfl

@[simp] theorem run_modify (g : σ → σ) (s : σ) :
    (modify g : Method ε σ PUnit).run s = (.ok ⟨⟩, g s) := rfl

@[simp] theorem run_raise (e : ε) (s : σ) : (raise e : Method ε σ α).run s = (.error e, s) := rfl

@[simp] theorem run_raise_bind (e : ε) (f : α → Method ε σ β) (s : σ) :
    ((raise e : Method ε σ α) >>= f).run s = (.error e, s) := rfl

@[simp] theorem run_pure_bind (a : α) (f : α → Method ε σ β) (s : σ) :
    ((pure a : Method ε σ α) >>= f).run s = (f a).run s := rfl

@[simp] theorem run_ofExcept_ok (a : α) (s : σ) :
    (ofExcept (.ok a) : Method ε σ α).run s = (.ok a, s) := rfl

@[simp] theorem run_ofExcept_error (e : ε) (s : σ) :
    (ofExcept (.error e) : Method ε σ α).run s = (.error e, s) := rfl

@[simp] theorem run_ofExcept_ok_bind (a : α) (f : α → Method ε σ β) (s : σ) :
    ((ofExcept (.ok a) : Method ε σ α) >>= f).run s = (f a).run s := rfl

@[simp] theorem run_ofExcept_error_bind (e : ε) (f : α → Method ε σ β) (s : σ) :
    ((ofExcept (.error e) : Method ε σ α) >>= f).run s = (.error e, s) := rfl

/-- Turning the value of a method into another one. -/
theorem run_bind_pure (m : Method ε σ α) (g : α → β) (s : σ) :
    (m >>= fun a => pure (g a)).run s = ((m.run s).1.map g, (m.run s).2) := by
  rw [run_bind]
  rcases m.run s with ⟨_ | _, _⟩ <;> rfl

theorem run_catchError (m : Method ε σ α) (handler : ε → Method ε σ α) (s : σ) :
    (catchError m handler).run s = match m.run s with
      | (.ok a, s') => (.ok a, s')
      | (.error e, s') => (handler e).run s' := rfl

theorem run_catchError_of_ok {m : Method ε σ α} {s s' : σ} {a : α}
    (h : m.run s = (.ok a, s')) (handler : ε → Method ε σ α) :
    (catchError m handler).run s = (.ok a, s') := by rw [run_catchError, h]

theorem run_catchError_of_error {m : Method ε σ α} {s s' : σ} {e : ε}
    (h : m.run s = (.error e, s')) (handler : ε → Method ε σ α) :
    (catchError m handler).run s = (handler e).run s' := by rw [run_catchError, h]

theorem run_ofExcept (x : Except ε α) (s : σ) : (ofExcept x : Method ε σ α).run s = (x, s) := by
  cases x <;> rfl

@[simp] theorem when_true {p : Prop} [Decidable p] (h : p) (m : Method ε σ Unit) : when p m = m :=
  if_pos h

@[simp] theorem when_false {p : Prop} [Decidable p] (h : ¬p) (m : Method ε σ Unit) :
    when p m = pure () := if_neg h

theorem ext_run {m m' : Method ε σ α} (h : ∀ s, m.run s = m'.run s) : m = m' := by
  cases m; cases m'
  exact congrArg Method.mk (funext h)

instance : LawfulMonad (Method ε σ) := LawfulMonad.mk' _
  (fun m => ext_run fun s => by
    show (m >>= fun a => pure a).run s = m.run s
    rw [run_bind]
    rcases m.run s with ⟨_ | _, _⟩ <;> rfl)
  (fun _ _ => rfl)
  (fun m f g => ext_run fun s => by
    rw [run_bind, run_bind, run_bind]
    rcases m.run s with ⟨_ | _, _⟩ <;> rfl)

/-- A loop whose first part returned goes on with the rest. -/
theorem run_mapM_append {f : β → Method ε σ α} {l : List β} {as : List α} {s s' : σ}
    (h : (l.mapM f).run s = (.ok as, s')) (l' : List β) :
    ((l ++ l').mapM f).run s = (((l'.mapM f).run s').1.map (as ++ ·), ((l'.mapM f).run s').2) := by
  rw [List.mapM_append, run_bind_of_ok h, run_bind_pure]

/-! ### What every run does to the state -/

/-- Every run of `m` relates the state it starts from to the state it leaves, also when it
raises. -/
def Moves (R : σ → σ → Prop) (m : Method ε σ α) : Prop := ∀ s, R s (m.run s).2

/-- The states that agree on a projection. -/
def Keeps {τ : Type} (f : σ → τ) (s s' : σ) : Prop := f s' = f s

instance {τ : Type} (f : σ → τ) : IsPreorder σ (Keeps f) where
  refl _ := rfl
  trans _ _ _ h h' := h'.trans h

theorem Keeps.map {τ υ : Type} {f : σ → τ} {s s' : σ} (h : Keeps f s s') (g : τ → υ) :
    Keeps (g ∘ f) s s' := congrArg g h

namespace Moves

variable {R : σ → σ → Prop}

theorem mono {R' : σ → σ → Prop} {m : Method ε σ α} (h : m.Moves R)
    (hR : ∀ s s', R s s' → R' s s') : m.Moves R' := fun s => hR _ _ (h s)

theorem modify {g : σ → σ} (h : ∀ s, R s (g s)) : (modify g : Method ε σ PUnit).Moves R := h

/-- Reading the state first: what was read is a parameter of the continuation. -/
theorem get_bind {f : σ → Method ε σ β} (hf : ∀ a, (f a).Moves R) :
    ((get : Method ε σ σ) >>= f).Moves R := fun s => hf s s

theorem ite {p : Prop} [Decidable p] {m m' : Method ε σ α} (hm : m.Moves R) (hm' : m'.Moves R) :
    (if p then m else m').Moves R := by
  split
  · exact hm
  · exact hm'

variable [IsPreorder σ R]

theorem pure (a : α) : (Pure.pure a : Method ε σ α).Moves R := fun s => refl_of R s

theorem raise (e : ε) : (Method.raise e : Method ε σ α).Moves R := fun s => refl_of R s

theorem ofExcept (x : Except ε α) : (Method.ofExcept x : Method ε σ α).Moves R := by
  intro s
  rw [run_ofExcept]
  exact refl_of R s

/-- What follows a check may rely on it. -/
theorem ofExcept_bind {x : Except ε α} {f : α → Method ε σ β}
    (hf : ∀ a, x = .ok a → (f a).Moves R) : (Method.ofExcept x >>= f).Moves R := by
  cases x with
  | ok a => exact hf a rfl
  | error e => exact fun s => refl_of R s

theorem bind {m : Method ε σ α} {f : α → Method ε σ β} (hm : m.Moves R)
    (hf : ∀ a, (f a).Moves R) : (m >>= f).Moves R := by
  intro s
  have h := hm s
  rw [run_bind]
  rcases hrun : m.run s with ⟨_ | a, s'⟩
  · simpa only [hrun] using h
  · rw [hrun] at h
    exact trans_of R h (hf a s')

theorem when {p : Prop} [Decidable p] {m : Method ε σ Unit} (h : m.Moves R) :
    (Method.when p m).Moves R := ite h (pure ())

theorem forM {l : List β} {f : β → Method ε σ PUnit} (h : ∀ b ∈ l, (f b).Moves R) :
    (l.forM f).Moves R := by
  induction l with
  | nil => exact pure _
  | cons b l ih =>
    exact bind (h b List.mem_cons_self) fun _ => ih fun c hc => h c (List.mem_cons_of_mem _ hc)

theorem mapM {l : List β} {f : β → Method ε σ α} (h : ∀ b ∈ l, (f b).Moves R) :
    (l.mapM f).Moves R := by
  induction l with
  | nil => exact pure _
  | cons b l ih =>
    rw [List.mapM_cons]
    exact bind (h b List.mem_cons_self) fun _ =>
      bind (ih fun c hc => h c (List.mem_cons_of_mem _ hc)) fun _ => pure _

theorem catchError {m : Method ε σ α} {handler : ε → Method ε σ α} (hm : m.Moves R)
    (hh : ∀ e, (handler e).Moves R) : (Method.catchError m handler).Moves R := by
  intro s
  have h := hm s
  rcases hrun : m.run s with ⟨e | a, s'⟩
  · rw [run_catchError_of_error hrun]
    rw [hrun] at h
    exact trans_of R h (hh e s')
  · rw [run_catchError_of_ok hrun]
    rwa [hrun] at h

end Moves

/-! ### What one run does -/

/-- The outcome and the last state of the run of `m` from `s` satisfy `P`. -/
def Yields (m : Method ε σ α) (s : σ) (P : Except ε α → σ → Prop) : Prop :=
  P (m.run s).1 (m.run s).2

namespace Yields

variable {s : σ} {m : Method ε σ α} {P Q : Except ε α → σ → Prop}

theorem mono (h : m.Yields s P) (hPQ : ∀ o s', P o s' → Q o s') : m.Yields s Q := hPQ _ _ h

theorem and (h : m.Yields s P) (h' : m.Yields s Q) : m.Yields s fun o s' => P o s' ∧ Q o s' :=
  ⟨h, h'⟩

theorem of_moves {R : σ → σ → Prop} (h : m.Moves R) : m.Yields s fun _ s' => R s s' := h s

theorem of_outcome {o : Except ε α} (h : (m.run s).1 = o) : m.Yields s fun o' _ => o' = o := h

theorem get_bind {f : σ → Method ε σ β} {P : Except ε β → σ → Prop} (h : (f s).Yields s P) :
    ((get : Method ε σ σ) >>= f).Yields s P := h

theorem modify_bind {g : σ → σ} {f : PUnit → Method ε σ β} {P : Except ε β → σ → Prop}
    (h : (f ⟨⟩).Yields (g s) P) : ((modify g : Method ε σ PUnit) >>= f).Yields s P := h

/-- The first method returned, or what it raised is the outcome of the whole. -/
theorem bind {f : α → Method ε σ β} {P : Except ε β → σ → Prop} (hm : m.Yields s Q)
    (hok : ∀ a s', Q (.ok a) s' → (f a).Yields s' P)
    (herror : ∀ e s', Q (.error e) s' → P (.error e) s') : (m >>= f).Yields s P := by
  unfold Yields at hm hok ⊢
  rw [run_bind]
  rcases hrun : m.run s with ⟨e | a, s'⟩
  · rw [hrun] at hm
    exact herror e s' hm
  · rw [hrun] at hm
    exact hok a s' hm

/-- A method about whose outcome only the effect on the state matters. -/
theorem bind_of_moves {R : σ → σ → Prop} {f : α → Method ε σ β} {P : Except ε β → σ → Prop}
    (hm : m.Moves R) (hok : ∀ a s', R s s' → (f a).Yields s' P)
    (herror : ∀ e s', R s s' → P (.error e) s') : (m >>= f).Yields s P :=
  bind (of_moves hm) hok herror

theorem pure_iff {a : α} : (Pure.pure a : Method ε σ α).Yields s P ↔ P (.ok a) s := Iff.rfl

/-- Continue with a pure computation that may raise. -/
theorem ofExcept_bind {x : Except ε α} {f : α → Method ε σ β} {P : Except ε β → σ → Prop}
    (hok : ∀ a, x = .ok a → (f a).Yields s P) (herror : ∀ e, x = .error e → P (.error e) s) :
    (Method.ofExcept x >>= f).Yields s P := by
  cases x with
  | ok a => exact hok a rfl
  | error e => exact herror e rfl

/-- What was raised goes to the handler. -/
theorem catchError {handler : ε → Method ε σ α} (hm : m.Yields s Q) (hok : ∀ a s', Q (.ok a) s' →
    P (.ok a) s')
    (herror : ∀ e s', Q (.error e) s' → (handler e).Yields s' P) :
      (Method.catchError m handler).Yields s P := by
  unfold Yields at hm ⊢
  rw [run_catchError]
  rcases hrun : m.run s with ⟨e | a, s'⟩
  · rw [hrun] at hm
    exact herror e s' hm
  · rw [hrun] at hm
    exact hok a s' hm

/-- A loop: `I` holds before each element, of what the elements before it returned and of those
that are left; when an element raises, `E` holds of what it leaves. -/
theorem mapM {I : List α → List β → σ → Prop} {E : ε → σ → Prop} {f : β → Method ε σ α}
    (hstep : ∀ as b l s, I as (b :: l) s → (f b).Yields s fun o s' =>
      (∀ a, o = .ok a → I (as ++ [a]) l s') ∧ ∀ e, o = .error e → E e s') :
    ∀ (l : List β) (as : List α) (s : σ), I as l s → (l.mapM f).Yields s fun o s' =>
      (∀ as', o = .ok as' → I (as ++ as') [] s') ∧ ∀ e, o = .error e → E e s'
  | [], as, s, h => ⟨fun as' has' => by
      obtain rfl : [] = as' := Except.ok.inj has'
      rw [List.append_nil]
      exact h, nofun⟩
  | b :: l, as, s, h => by
    rw [List.mapM_cons]
    refine bind (hstep as b l s h) (fun a s' hs' => ?_)
      fun e s' hs' => ⟨nofun, fun e' he' => hs'.2 e' (congrArg Except.error (Except.error.inj he'))⟩
    refine bind (mapM hstep l (as ++ [a]) s' (hs'.1 a rfl)) (fun as' s'' hs'' => ?_)
      fun e s'' hs'' => ⟨nofun, fun e' he' =>
        hs''.2 e' (congrArg Except.error (Except.error.inj he'))⟩
    refine ⟨fun as'' has'' => ?_, nofun⟩
    obtain rfl := Except.ok.inj has''
    have hI := hs''.1 as' rfl
    rwa [List.append_assoc] at hI

/-- A loop returns exactly if each element passes, where what an element needs does not change with
the state. -/
theorem mapM_returns_iff {C : β → Prop} {I : List β → σ → Prop}
    {f : β → Method ε σ α}
    (hstep : ∀ b l s, I (b :: l) s → (f b).Yields s fun o s' =>
      ((∃ a, o = .ok a) ↔ C b) ∧ ∀ a, o = .ok a → I l s') :
    ∀ (l : List β) (s : σ), I l s → (l.mapM f).Yields s fun o s' =>
      ((∃ as, o = .ok as) ↔ ∀ b ∈ l, C b) ∧ ∀ as, o = .ok as → I [] s' := by
  intro l
  induction l with
  | nil =>
    intro s h
    exact ⟨iff_of_true ⟨_, rfl⟩ fun b hb => absurd hb List.not_mem_nil, fun _ _ => h⟩
  | cons b l ih =>
    intro s h
    have hraised : ∀ {e : ε}, ¬∃ as : List α, Except.error e = .ok as := by
      rintro e ⟨_, h⟩
      cases h
    rw [List.mapM_cons]
    refine bind (hstep b l s h) (fun a s' hs' => ?_) fun e s' hs' => ?_
    · have hb := hs'.1.mp ⟨a, rfl⟩
      refine bind (ih s' (hs'.2 a rfl)) (fun as s'' hs'' => ?_) fun e s'' hs'' => ?_
      · refine ⟨iff_of_true ⟨_, rfl⟩ ?_, fun _ _ => hs''.2 as rfl⟩
        exact List.forall_mem_cons.mpr ⟨hb, hs''.1.mp ⟨as, rfl⟩⟩
      · refine ⟨iff_of_false hraised fun hall => ?_, fun _ h => by cases h⟩
        obtain ⟨as, has⟩ := hs''.1.mpr fun c hc => hall c (List.mem_cons_of_mem _ hc)
        cases has
    · refine ⟨iff_of_false hraised fun hall => ?_, fun _ h => by cases h⟩
      obtain ⟨a, ha⟩ := hs'.1.mpr (hall b List.mem_cons_self)
      cases ha

end Yields

end Method

end OpenQSP
