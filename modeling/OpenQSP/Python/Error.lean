import OpenQSP.Python.Text

/-!
# Exceptions

An exception is a class and a text. The text matters: a failed decode is answered with an `ERROR`
frame whose detail is the text of the exception.

`ErrorClass.isA` is the subclass relation, so that an `except` clause of the source is one test.

## Main definitions

* `ErrorClass`, `ErrorClass.isA`
* `PyError`
* `Py`, `raiseIf` — computations that may raise
* `Raises` — what a computation raises has a property
* `hexByte` — the format `0x{value:02x}`
-/

namespace OpenQSP

/-- The exception classes the modelled code raises or catches. -/
inductive ErrorClass
  -- protocol/errors.py
  | protocolDecodeError | protocolEncodeError | unsupportedVersionError | unknownOperationError
  | invalidFieldError | fieldTooLongError | payloadLengthError
  -- transport/aprs
  | carriageError | transactionConflict
  -- storage
  | sequenceExhaustedError | storageIntegrityError | invalidCursorError
  | idempotencyConflictError | accountExistsError | invalidCredentialsError
  -- client
  | clientError | authenticationError | connectionClosedError
  -- the language and sqlite3
  | valueError | typeError | keyError | overflowError | unicodeEncodeError | unicodeDecodeError
  | assertionError | osError | integrityError | operationalError
  deriving DecidableEq

namespace ErrorClass

/-- The class itself and the modelled classes it derives from. -/
def bases : ErrorClass → List ErrorClass
  | unsupportedVersionError => [unsupportedVersionError, protocolDecodeError]
  | unknownOperationError => [unknownOperationError, protocolDecodeError]
  | payloadLengthError => [payloadLengthError, protocolDecodeError]
  | fieldTooLongError => [fieldTooLongError, invalidFieldError]
  | carriageError => [carriageError, valueError]
  | transactionConflict => [transactionConflict, carriageError, valueError]
  | invalidCursorError => [invalidCursorError, valueError]
  | idempotencyConflictError => [idempotencyConflictError, valueError]
  | accountExistsError => [accountExistsError, valueError]
  | invalidCredentialsError => [invalidCredentialsError, valueError]
  | authenticationError => [authenticationError, clientError]
  | connectionClosedError => [connectionClosedError, clientError]
  | unicodeEncodeError => [unicodeEncodeError, valueError]
  | unicodeDecodeError => [unicodeDecodeError, valueError]
  | c => [c]

/-- `issubclass(c, d)` -/
def isA (c d : ErrorClass) : Bool := d ∈ c.bases

end ErrorClass

/-- A raised exception. -/
structure PyError where
  /-- Its class. -/
  cls : ErrorClass
  /-- `str(error)`. -/
  text : String
  deriving DecidableEq

instance instDecidableEqResult {ε α : Type} [DecidableEq ε] [DecidableEq α] :
    DecidableEq (Except ε α)
  | .error e, .error e' => decidable_of_iff (e = e') (by rw [Except.error.injEq])
  | .ok a, .ok a' => decidable_of_iff (a = a') (by rw [Except.ok.injEq])
  | .error _, .ok _ => isFalse (by intro h; cases h)
  | .ok _, .error _ => isFalse (by intro h; cases h)

namespace PyError

/-- `isinstance(error, c)` -/
def isA (e : PyError) (c : ErrorClass) : Bool := e.cls.isA c

def invalidField (text : String) : PyError := ⟨.invalidFieldError, text⟩

def payloadLength (text : String) : PyError := ⟨.payloadLengthError, text⟩

def carriage (text : String) : PyError := ⟨.carriageError, text⟩

end PyError

/-! ### Computations that may raise -/

/-- A computation without state: a value or an exception. -/
abbrev Py := Except PyError

/-- `if p: raise e` -/
def raiseIf (p : Prop) [Decidable p] (e : PyError) : Py Unit := if p then .error e else .ok ()

namespace Py

variable {α β : Type}

/-- A computation that returned has returned in each of its steps. -/
theorem bind_eq_ok {x : Py α} {f : α → Py β} {b : β} :
    (x >>= f) = .ok b ↔ ∃ a, x = .ok a ∧ f a = .ok b := by
  cases x with
  | error e => simp [bind, Except.bind]
  | ok a => simp [bind, Except.bind]

theorem map_eq_ok {x : Py α} {f : α → β} {b : β} : x.map f = .ok b ↔ ∃ a, x = .ok a ∧ f a = b := by
  cases x with
  | error e => simp [Except.map]
  | ok a => simp [Except.map]

@[simp] theorem ok_bind (a : α) (f : α → Py β) : ((.ok a : Py α) >>= f) = f a := rfl

@[simp] theorem pure_eq_ok (a : α) : (pure a : Py α) = .ok a := rfl

@[simp] theorem error_bind (e : PyError) (f : α → Py β) :
    ((.error e : Py α) >>= f) = .error e := rfl

/-- A loop returned when it returned for each element. -/
theorem mapM_eq_ok {f : α → Py β} {l : List α} {l' : List β} :
    l.mapM f = .ok l' ↔ List.Forall₂ (fun a b => f a = .ok b) l l' := by
  induction l generalizing l' with
  | nil =>
    rw [List.mapM_nil, List.forall₂_nil_left_iff, pure_eq_ok, Except.ok.injEq, eq_comm]
  | cons a l ih =>
    rw [List.mapM_cons, bind_eq_ok, List.forall₂_cons_left_iff]
    simp only [bind_eq_ok, pure_eq_ok, Except.ok.injEq, ih]
    constructor
    · rintro ⟨b, hb, bs, hbs, rfl⟩
      exact ⟨b, bs, hb, hbs, rfl⟩
    · rintro ⟨b, bs, hb, hbs, rfl⟩
      exact ⟨b, hb, bs, hbs, rfl⟩

theorem mapM_congr {f g : α → Py β} {l : List α} (h : ∀ a ∈ l, f a = g a) : l.mapM f =
    l.mapM g := by
  induction l with
  | nil => rfl
  | cons a l ih =>
    rw [List.mapM_cons, List.mapM_cons, h a List.mem_cons_self,
      ih fun b hb => h b (List.mem_cons_of_mem _ hb)]

/-- A loop returns when it returns for each element. -/
theorem exists_mapM {f : α → Py β} {l : List α} (h : ∀ a ∈ l, ∃ b, f a = .ok b) :
    ∃ l', List.Forall₂ (fun a b => f a = .ok b) l l' ∧ l.mapM f = .ok l' := by
  have hforall : ∃ l', List.Forall₂ (fun a b => f a = .ok b) l l' := by
    induction l with
    | nil => exact ⟨[], .nil⟩
    | cons a l ih =>
      obtain ⟨b, hb⟩ := h a List.mem_cons_self
      obtain ⟨l', hl'⟩ := ih fun a ha => h a (List.mem_cons_of_mem _ ha)
      exact ⟨b :: l', .cons hb hl'⟩
  obtain ⟨l', hl'⟩ := hforall
  exact ⟨l', hl', mapM_eq_ok.mpr hl'⟩

/-- What is related to a list came from an element. -/
theorem exists_of_mem_forall₂ {R : α → β → Prop} {l : List α} {l' : List β}
    (h : List.Forall₂ R l l') {b : β} (hb : b ∈ l') : ∃ a ∈ l, R a b := by
  induction h with
  | nil => cases hb
  | cons hab _ ih =>
    rcases List.mem_cons.mp hb with rfl | hb
    · exact ⟨_, List.mem_cons_self, hab⟩
    · obtain ⟨a, ha, hab⟩ := ih hb
      exact ⟨a, List.mem_cons_of_mem _ ha, hab⟩

/-- What a loop returned came from an element. -/
theorem exists_of_mem_mapM {f : α → Py β} {l : List α} {l' : List β} (h : l.mapM f = .ok l') {b : β}
    (hb : b ∈ l') : ∃ a ∈ l, f a = .ok b := exists_of_mem_forall₂ (mapM_eq_ok.mp h) hb

end Py

@[simp] theorem raiseIf_eq_ok {p : Prop} [Decidable p] {e : PyError} {u : Unit} :
    raiseIf p e = .ok u ↔ ¬p := by
  rw [raiseIf]
  split <;> simp [*]

theorem raiseIf_of_not {p : Prop} [Decidable p] (h : ¬p) (e : PyError) : raiseIf p e = .ok () :=
  raiseIf_eq_ok.mpr h

/-- What the computation raises has a property. -/
def Raises {α : Type} (P : PyError → Prop) (x : Py α) : Prop := ∀ e, x = .error e → P e

namespace Raises

variable {α β : Type} {P : PyError → Prop}

theorem ok (a : α) : Raises P (.ok a : Py α) := nofun

theorem error {e : PyError} (h : P e) : Raises P (.error e : Py α) := by
  rintro _ ⟨⟩
  exact h

/-- The second computation is only reached with what the first one returned. -/
theorem bind_of {x : Py α} {f : α → Py β} (hx : Raises P x) (hf : ∀ a, x = .ok a → Raises P (f a)) :
    Raises P (x >>= f) := by
  intro e h
  cases x with
  | error e' =>
    obtain rfl := Except.error.inj h
    exact hx _ rfl
  | ok a => exact hf a rfl e h

theorem bind {x : Py α} {f : α → Py β} (hx : Raises P x) (hf : ∀ a, Raises P (f a)) :
    Raises P (x >>= f) := bind_of hx fun a _ => hf a

theorem ite {c : Prop} [Decidable c] {x y : Py α} (hx : Raises P x) (hy : Raises P y) :
    Raises P (if c then x else y) := by
  split
  · exact hx
  · exact hy

theorem check {p : Prop} [Decidable p] {e : PyError} (h : P e) :
    Raises P (raiseIf p e) := ite (error h) (ok ())

theorem mapM {f : α → Py β} {l : List α} (h : ∀ a ∈ l, Raises P (f a)) : Raises P (l.mapM f) := by
  induction l with
  | nil => exact ok []
  | cons a l ih =>
    rw [List.mapM_cons]
    refine bind (h a List.mem_cons_self) fun b => bind (ih fun c hc => ?_) fun _ => ok _
    exact h c (List.mem_cons_of_mem _ hc)

end Raises

/-- One hexadecimal digit. -/
def hexDigit (n : ℕ) : Char := "0123456789abcdef".toList.getD n '0'

/-- `f"0x{byte:02x}"` -/
def hexByte (byte : UInt8) : String :=
  String.ofList ['0', 'x', hexDigit (byte.toNat / 16), hexDigit (byte.toNat % 16)]

end OpenQSP
