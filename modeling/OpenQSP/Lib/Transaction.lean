import OpenQSP.Lib.Method

/-!
# Transactions on a database connection

A connection sees a committed database and, while a transaction is open, a private working copy.
Statements read and write the working copy; `commit` publishes it and `rollback` drops it. The
engine may refuse any statement: a list of faults, fixed in advance and arbitrary, says which
statement fails and how, so a result that holds for every list holds under any failure.

## Reasoning

Two triples describe a session that runs inside an open transaction.

* `Ensures P m Q`: from a working copy in `P`, `m` never touches the committed database, and when
  it returns `a` the working copy satisfies `Q a`.
* `Commits P m Q`: from a working copy in `P`, if `m` raises then the committed database is as
  before, and if it returns `a` then the committed database satisfies `Q a`. Such a session
  commits as its last fallible step.

`Ensures.bind` and `Commits.bind` compose them, and `run_atomically` turns `Commits` into the
all-or-nothing statement about a whole connection.

## Main definitions

* `Connection`, `Session`
* `Session.execute`, `Session.commit`, `Session.atomically`, `Session.closing`
* `Session.Ensures`, `Session.Commits`

## Main results

* `Ensures.bind`, `Ensures.execute`, `Commits.bind`, `Commits.commit`
* `Commits.step`, `Commits.check` — the same from a known working copy
* `run_closing_atomically`
-/

namespace OpenQSP

/-- A connection to a database of states `δ`, whose engine may fail with `ε`. -/
structure Connection (ε δ : Type) where
  /-- The committed database. -/
  database : δ
  /-- The working copy of the open transaction. -/
  working : Option δ
  /-- What happens to the next statements: `some e` makes the engine refuse one. -/
  faults : List (Option ε)

/-- A computation on a connection. -/
abbrev Session (ε δ α : Type) := Method ε (Connection ε δ) α

namespace Session

variable {ε δ α β : Type}

/-- Hand one statement to the engine, which may refuse it. -/
def engine : Session ε δ Unit := ⟨fun c =>
  match c.faults with
  | [] => (.ok (), c)
  | none :: rest => (.ok (), { c with faults := rest })
  | some e :: rest => (.error e, { c with faults := rest })⟩

/-- Open a transaction. -/
def begin : Session ε δ Unit := do
  engine
  modify fun c => { c with working := some c.database }

/-- Run a statement on the working copy, or on the database itself outside a transaction. A
statement that raises has no effect. -/
def execute (statement : δ → Except ε (α × δ)) : Session ε δ α := do
  engine
  let c ← get
  let (a, d) ← Method.ofExcept (statement (c.working.getD c.database))
  set (match c.working with
    | some _ => { c with working := some d }
    | none => { c with database := d })
  return a

/-- Publish the working copy. -/
def commit : Session ε δ Unit := do
  engine
  modify fun c => { c with database := c.working.getD c.database, working := none }

/-- Run `body` in a transaction and undo it when it raises. The transaction is dropped even if the
engine refuses the rollback, because the connection is closed right after. -/
def atomically (body : Session ε δ α) : Session ε δ α := do
  begin
  ⟨fun c =>
    match body.run c with
    | (.ok a, c') => (.ok a, c')
    | (.error e, c') => (.error e, { c' with working := none })⟩

/-- Run a session on a connection of its own. Only what it committed remains. -/
def closing (faults : List (Option ε)) (m : Session ε δ α) : Method ε δ α := ⟨fun d =>
  let (outcome, c) := m.run ⟨d, none, faults⟩
  (outcome, c.database)⟩

/-! ### Inside a transaction -/

/-- From a working copy in `P`, `m` leaves the committed database alone, and a returned value and
the working copy it leaves satisfy `Q`. -/
def Ensures (P : δ → Prop) (m : Session ε δ α) (Q : α → δ → Prop) : Prop :=
  ∀ c d, c.working = some d → P d → (m.run c).2.database = c.database ∧
    ∀ a, (m.run c).1 = .ok a → ∃ d', (m.run c).2.working = some d' ∧ Q a d'

/-- From a working copy in `P`, `m` either raises and leaves the committed database alone, or
returns and has committed a database in `Q`. -/
def Commits (P : δ → Prop) (m : Session ε δ α) (Q : α → δ → Prop) : Prop :=
  ∀ c d, c.working = some d → P d →
    (∀ e, (m.run c).1 = .error e → (m.run c).2.database = c.database) ∧
    ∀ a, (m.run c).1 = .ok a → Q a (m.run c).2.database

theorem run_engine (c : Connection ε δ) : ∃ rest,
    ((engine : Session ε δ Unit).run c).2 = { c with faults := rest } := by
  obtain ⟨database, working, faults⟩ := c
  rcases faults with _ | ⟨_ | e, rest⟩
  · exact ⟨[], rfl⟩
  · exact ⟨rest, rfl⟩
  · exact ⟨rest, rfl⟩

namespace Ensures

variable {P : δ → Prop}

theorem pure {a : α} : Ensures (ε := ε) P (Pure.pure a) fun b d => b = a ∧ P d := by
  intro c d hd hP
  exact ⟨rfl, fun b hb => ⟨d, hd, (Except.ok.inj hb).symm, hP⟩⟩

theorem raise {e : ε} {Q : α → δ → Prop} : Ensures P (Method.raise e) Q :=
  fun _ _ _ _ => ⟨rfl, fun _ h => by cases h⟩

/-- A pure check inside a transaction. -/
theorem ofExcept (x : Except ε α) :
    Ensures P (Method.ofExcept x) fun a d => x = .ok a ∧ P d := by
  intro c d hd hP
  rw [Method.run_ofExcept]
  exact ⟨rfl, fun a ha => ⟨d, hd, ha, hP⟩⟩

theorem bind {m : Session ε δ α} {f : α → Session ε δ β} {Q : α → δ → Prop} {R : β → δ → Prop}
    (hm : Ensures P m Q) (hf : ∀ a, Ensures (Q a) (f a) R) : Ensures P (m >>= f) R := by
  intro c d hd hP
  obtain ⟨hdb, hok⟩ := hm c d hd hP
  rw [Method.run_bind]
  rcases hrun : m.run c with ⟨e | a, c'⟩
  · rw [hrun] at hdb
    exact ⟨hdb, fun b hb => by cases hb⟩
  · rw [hrun] at hdb hok
    obtain ⟨d', hd', hQ⟩ := hok a rfl
    obtain ⟨hdb', hok'⟩ := hf a c' d' hd' hQ
    exact ⟨hdb'.trans hdb, hok'⟩

theorem mono {m : Session ε δ α} {Q Q' : α → δ → Prop} (h : Ensures P m Q)
    (hQ : ∀ a d, Q a d → Q' a d) : Ensures P m Q' := by
  intro c d hd hP
  obtain ⟨hdb, hok⟩ := h c d hd hP
  exact ⟨hdb, fun a ha => let ⟨d', hd', hQa⟩ := hok a ha; ⟨d', hd', hQ a d' hQa⟩⟩

/-- A statement that returned has run on the working copy. -/
theorem execute (statement : δ → Except ε (α × δ)) :
    Ensures P (execute statement) fun a d' => ∃ d, P d ∧ statement d = .ok (a, d') := by
  intro c d hd hP
  obtain ⟨rest, hrest⟩ := run_engine c
  rw [Session.execute, Method.run_bind]
  rcases hrun : (engine : Session ε δ Unit).run c with ⟨e | _, c'⟩
  · rw [hrun] at hrest
    subst hrest
    exact ⟨rfl, fun a ha => by cases ha⟩
  · rw [hrun] at hrest
    subst hrest
    simp only [Method.run_get_bind, hd, Option.getD_some]
    rcases hstmt : statement d with e | ⟨a, d'⟩
    · exact ⟨rfl, fun b hb => by cases hb⟩
    · exact ⟨rfl, fun b hb => ⟨d', rfl, d, hP, by rw [hstmt, ← Except.ok.inj hb]⟩⟩

end Ensures

namespace Commits

variable {P : δ → Prop}

theorem bind {m : Session ε δ α} {f : α → Session ε δ β} {Q : α → δ → Prop} {R : β → δ → Prop}
    (hm : Ensures P m Q) (hf : ∀ a, Commits (Q a) (f a) R) : Commits P (m >>= f) R := by
  intro c d hd hP
  obtain ⟨hdb, hok⟩ := hm c d hd hP
  rw [Method.run_bind]
  rcases hrun : m.run c with ⟨e | a, c'⟩
  · rw [hrun] at hdb
    exact ⟨fun _ _ => hdb, fun b hb => by cases hb⟩
  · rw [hrun] at hdb hok
    obtain ⟨d', hd', hQ⟩ := hok a rfl
    obtain ⟨herr, hok'⟩ := hf a c' d' hd' hQ
    exact ⟨fun e he => (herr e he).trans hdb, hok'⟩

theorem raise {e : ε} {Q : α → δ → Prop} : Commits P (Method.raise e) Q :=
  fun _ _ _ _ => ⟨fun _ _ => rfl, fun _ h => by cases h⟩

/-- Committing last: what follows the commit must not raise. -/
theorem commit {x : Except ε α} {Q : α → δ → Prop} (h : ∀ d, P d → ∃ a, x = .ok a ∧ Q a d) :
    Commits P (do Session.commit; Method.ofExcept x) Q := by
  intro c d hd hP
  obtain ⟨rest, hrest⟩ := run_engine c
  obtain ⟨a, rfl, hQ⟩ := h d hP
  rw [Session.commit, bind_assoc, Method.run_bind]
  rcases hrun : (engine : Session ε δ Unit).run c with ⟨e | _, c'⟩
  · rw [hrun] at hrest
    subst hrest
    exact ⟨fun _ _ => rfl, fun a ha => by cases ha⟩
  · rw [hrun] at hrest
    subst hrest
    simp only [Method.run_modify_bind, Method.run_ofExcept_ok, hd, Option.getD_some]
    exact ⟨fun e he => (by cases he), fun b hb => by rwa [← Except.ok.inj hb]⟩

theorem mono {m : Session ε δ α} {Q Q' : α → δ → Prop} (h : Commits P m Q)
    (hQ : ∀ a d, Q a d → Q' a d) : Commits P m Q' :=
  fun c d hd hP => ⟨(h c d hd hP).1, fun a ha => hQ a _ ((h c d hd hP).2 a ha)⟩

/-- To reason from a set of working copies, reason from each one. -/
theorem of_forall {m : Session ε δ α} {Q : α → δ → Prop}
    (h : ∀ d, P d → Commits (· = d) m Q) : Commits P m Q :=
  fun c d hd hP => h d hP c d hd rfl

/-- One statement, from a known working copy. -/
theorem step {t : δ} {statement : δ → Except ε (α × δ)} {f : α → Session ε δ β}
    {R : β → δ → Prop}
    (h : ∀ a t', statement t = .ok (a, t') → Commits (· = t') (f a) R) :
    Commits (· = t) (Session.execute statement >>= f) R :=
  bind (Ensures.execute statement) fun a => of_forall fun t' ht' => by
    obtain ⟨d, rfl, hstmt⟩ := ht'
    exact h a t' hstmt

/-- One pure check, from a known working copy. -/
theorem check {t : δ} {x : Except ε α} {f : α → Session ε δ β} {R : β → δ → Prop}
    (h : ∀ a, x = .ok a → Commits (· = t) (f a) R) :
    Commits (· = t) (Method.ofExcept x >>= f) R :=
  bind (Ensures.ofExcept x) fun a => of_forall fun t' ht' => by
    obtain ⟨hx, rfl⟩ := ht'
    exact h a hx

end Commits

/-! ### Whole connections -/

theorem run_closing (faults : List (Option ε)) (m : Session ε δ α) (d : δ) :
    (closing faults m).run d = ((m.run ⟨d, none, faults⟩).1,
      (m.run ⟨d, none, faults⟩).2.database) :=
  rfl

theorem run_atomically_of_refused {body : Session ε δ α} {c c' : Connection ε δ} {e : ε}
    (h : (engine : Session ε δ Unit).run c = (.error e, c')) :
    (atomically body).run c = (.error e, c') := by
  rw [atomically, begin, bind_assoc, Method.run_bind_of_error h]

theorem run_atomically (body : Session ε δ α) {c c' : Connection ε δ}
    (h : (engine : Session ε δ Unit).run c = (.ok (), c')) :
    ((atomically body).run c).1 = (body.run { c' with working := some c'.database }).1 ∧
    ((atomically body).run c).2.database =
      (body.run { c' with working := some c'.database }).2.database := by
  rw [atomically, begin, bind_assoc, Method.run_bind_of_ok h, Method.run_modify_bind]
  dsimp only
  rcases body.run { c' with working := some c'.database } with ⟨e | a, c''⟩
  · exact ⟨rfl, rfl⟩
  · exact ⟨rfl, rfl⟩

/-- **All or nothing.** A session that commits last leaves the database as it was when it raises,
and in `Q` when it returns, whatever the engine refuses. -/
theorem run_closing_atomically {body : Session ε δ α} {Q : α → δ → Prop} {d : δ}
    (h : Commits (· = d) body Q) (faults : List (Option ε)) :
    (∀ e, ((closing faults (atomically body)).run d).1 = .error e →
      ((closing faults (atomically body)).run d).2 = d) ∧
    ∀ a, ((closing faults (atomically body)).run d).1 = .ok a →
      Q a ((closing faults (atomically body)).run d).2 := by
  obtain ⟨rest, hrest⟩ := run_engine (⟨d, none, faults⟩ : Connection ε δ)
  rw [run_closing]
  rcases hrun : (engine : Session ε δ Unit).run ⟨d, none, faults⟩ with ⟨e | _, c⟩
  · rw [hrun] at hrest
    subst hrest
    rw [run_atomically_of_refused hrun]
    exact ⟨fun _ _ => rfl, fun a ha => by cases ha⟩
  · rw [hrun] at hrest
    subst hrest
    obtain ⟨houtcome, hdatabase⟩ := run_atomically body hrun
    obtain ⟨herr, hok⟩ := h ⟨d, some d, rest⟩ d rfl rfl
    rw [houtcome, hdatabase]
    exact ⟨herr, hok⟩

/-! ### When the engine refuses nothing -/

theorem run_execute (statement : δ → Except ε (α × δ)) (d t : δ) :
    (execute statement).run ⟨d, some t, []⟩ = match statement t with
      | .ok (a, t') => (.ok a, ⟨d, some t', []⟩)
      | .error e => (.error e, ⟨d, some t, []⟩) := by
  have hengine : (engine : Session ε δ Unit).run ⟨d, some t, []⟩ = (.ok (), ⟨d, some t, []⟩) := rfl
  rw [execute, Method.run_bind_of_ok hengine, Method.run_get_bind]
  simp only [Option.getD_some]
  rcases statement t with e | ⟨a, t'⟩
  · rfl
  · rfl

theorem run_execute_of_ok {statement : δ → Except ε (α × δ)} {d t t' : δ} {a : α}
    (h : statement t = .ok (a, t')) :
    (execute statement).run ⟨d, some t, []⟩ = (.ok a, ⟨d, some t', []⟩) := by
  rw [run_execute, h]

theorem run_commit (d t : δ) :
    (commit : Session ε δ Unit).run ⟨d, some t, []⟩ = (.ok (), ⟨t, none, []⟩) := rfl

theorem run_closing_atomically_nil (body : Session ε δ α) (d : δ) :
    (closing [] (atomically body)).run d =
      ((body.run ⟨d, some d, []⟩).1, (body.run ⟨d, some d, []⟩).2.database) := by
  have hengine : (engine : Session ε δ Unit).run ⟨d, none, []⟩ = (.ok (), ⟨d, none, []⟩) := rfl
  have h := run_atomically body hengine
  rw [run_closing, h.1, h.2]

end Session

end OpenQSP
