import Mathlib.Data.List.TakeWhile
import OpenQSP.Aprs.Encoding
import OpenQSP.Lib.Method
import OpenQSP.Lib.OrderedDict
import OpenQSP.Protocol.Fields

/-!
# Accounts

An account is a normalized callsign and a password, of which only a salted derivation is stored. The
key derivation is a parameter: nothing here depends on what it computes. A callsign may be written
in any script as long as its upper case is one that the protocol admits; what the Unicode tables
say outside ASCII is a parameter as well.

## Main definitions

* `UnicodeTables`, `UnicodeTables.normalizeCallsign`
* `passwordBytes`, `b64encode`, `b64decode`
* `AccountStore`, `AccountStore.createAccount`, `AccountStore.authenticate`

## Main results

* `UnicodeTables.normalizeCallsign_normalized` — a normalized callsign is its own normal form
* `b64decode_b64encode`
* `AccountStore.authenticate_of_creates` — the password of an account authenticates, whatever other
  accounts are created
-/

namespace OpenQSP

open Method Py

/-! ### Callsigns in any script -/

/-- White space, as far as ASCII goes. -/
def PyChar.isBlank (c : PyChar) : Bool :=
  c.code = 32 || (9 ≤ c.code && c.code ≤ 13) || (28 ≤ c.code && c.code ≤ 31)

/-- White space and case mapping of characters. Only their ASCII part is fixed; the upper case of a
character may be a text. -/
structure UnicodeTables where
  isSpace : PyChar → Bool
  upper : PyChar → Str
  isSpace_ascii : ∀ c, c.code < 128 → isSpace c = c.isBlank
  upper_ascii : ∀ c, c.code < 128 → upper c = [c.upper]

namespace UnicodeTables

/-- The tables of a language that knows ASCII only. -/
def ascii : UnicodeTables := ⟨PyChar.isBlank, fun c => [c.upper], fun _ _ => rfl, fun _ _ => rfl⟩

variable (unicode : UnicodeTables)

/-- `text.strip()` -/
def strip (text : Str) : Str :=
  ((text.dropWhile unicode.isSpace).reverse.dropWhile unicode.isSpace).reverse

/-- `normalize_callsign` -/
def normalizeCallsign (value : Str) (field : String) : Py Str :=
  let normalized := (unicode.strip value).flatMap unicode.upper
  let base := (normalized.takeWhile (·.code ≠ 47)).takeWhile (·.code ≠ 45)
  validateCallsign base field

end UnicodeTables

/-! ### Passwords -/

def pbkdf2Iterations : ℕ := 600000

def maxPasswordBytes : ℕ := 128

def invalidCredentials : PyError := ⟨.invalidCredentialsError, "invalid credentials"⟩

/-- `_password_bytes` -/
def passwordBytes (password : Str) : Py Bytes :=
  match encodeUtf8 password with
  | none => .error invalidCredentials
  | some encoded => do
    raiseIf (¬(1 ≤ encoded.length ∧ encoded.length ≤ maxPasswordBytes) ∨ 0 ∈ encoded)
      invalidCredentials
    return encoded

/-- The character of standard Base64 for one of Base64url. -/
def standardDigit (c : PyChar) : PyChar :=
  if c.code = 45 then .scalar '+' else if c.code = 95 then .scalar '/' else c

/-- The character of Base64url for one of standard Base64. -/
def urlSafeDigit (c : PyChar) : PyChar :=
  if c.code = 43 then .scalar '-' else if c.code = 47 then .scalar '_' else c

/-- `[A-Za-z0-9+/]` -/
def PyChar.isStandardBase64 (c : PyChar) : Bool :=
  c.isUpper || c.isLower || c.isDigit || c.code = 43 || c.code = 47

/-- `base64.b64encode(data).decode("ascii")` -/
def b64encode (data : Bytes) : Str :=
  let digits := (base64Encode data).map standardDigit
  digits ++ List.replicate ((4 - digits.length % 4) % 4) (.scalar '=')

/-- `base64.b64decode(text, validate=True)` -/
def b64decode (text : Str) : Py Bytes := do
  let digits := text.takeWhile fun c => c.code ≠ 61
  let padding := text.drop digits.length
  raiseIf (¬(digits.all PyChar.isStandardBase64 ∧ padding.all (fun c => c.code = 61) ∧
      padding.length ≤ 2 ∧ text.length % 4 = 0))
    ⟨.valueError, "Only base64 data is allowed"⟩
  return base64Decode (digits.map urlSafeDigit)

/-- `int(text)`, for ASCII text. -/
def parseInt (text : Str) : Py ℤ :=
  let text := strip text
  let signed := text.take 1 = str "-" ∨ text.take 1 = str "+"
  let groups := (if signed then text.drop 1 else text).splitOn (.scalar '_')
  if groups.all fun group => group ≠ [] && group.all PyChar.isDigit then
    let value := (groups.flatten.foldl (fun value c => value * 10 + (c.code - 48)) 0 : ℕ)
    .ok (if text.take 1 = str "-" then -value else value)
  else .error ⟨.valueError, "invalid literal for int() with base 10"⟩

/-! ### The store -/

structure Account where
  passwordHash : Str
  createdAt : ℤ
  deriving DecidableEq

/-- The accounts, under their callsigns. -/
abbrev Accounts := OrderedDict Str Account

/-- What an account store uses of the standard library: the key derivation, of a password with a
salt and a number of iterations, and the tables of the Unicode standard. -/
structure AccountStore where
  derive : Bytes → Bytes → ℕ → Bytes
  unicode : UnicodeTables

namespace AccountStore

variable (store : AccountStore)

/-- `"pbkdf2_sha256${}${}${}".format(...)` -/
def representation (secret salt : Bytes) : Str :=
  [PyChar.scalar '$'].intercalate [str "pbkdf2_sha256", str (toString pbkdf2Iterations),
    b64encode salt, b64encode (store.derive secret salt pbkdf2Iterations)]

/-- `create_account`, with a salt that was drawn. What the table does not admit is reported as an
account that exists. -/
def createAccount (callsign password : Str) (salt : Bytes) (now : ℤ) :
    Method PyError Accounts Str := do
  match store.unicode.normalizeCallsign callsign "callsign" with
  | .error e =>
    if e.isA .invalidFieldError then
      Method.raise ⟨.invalidCredentialsError, "invalid account data"⟩
    else Method.raise e
  | .ok normalized => do
    let secret ← Method.ofExcept (passwordBytes password)
    let accounts ← get
    Method.ofExcept (raiseIf (normalized ∈ accounts.keys ∨ now < 0)
      ⟨.accountExistsError, "account already exists"⟩)
    modify fun accounts => accounts.set normalized ⟨store.representation secret salt, now⟩
    return normalized

/-- Does the password belong to the stored text? -/
def verify (secret : Bytes) (passwordHash : Str) : Py Bool :=
  match passwordHash.splitOn (.scalar '$') with
  | [algorithm, iterationsText, saltText, expectedText] => do
    raiseIf (algorithm ≠ str "pbkdf2_sha256") ⟨.valueError, ""⟩
    let iterations ← parseInt iterationsText
    raiseIf (¬(100000 ≤ iterations ∧ iterations ≤ 10000000)) ⟨.valueError, ""⟩
    let actual := store.derive secret (← b64decode saltText) iterations.toNat
    let expected ← b64decode expectedText
    return actual = expected
  | _ => .error ⟨.valueError, "not enough values to unpack"⟩

/-- `authenticate`: the normalized callsign, or one failure that says nothing about the reason. -/
def authenticate (callsign password : Str) (accounts : Accounts) : Py Str := do
  let secret ← passwordBytes password
  let normalized ← match store.unicode.normalizeCallsign callsign "callsign" with
    | .ok normalized => .ok normalized
    | .error e => if e.isA .invalidFieldError then .ok (str "N0NONE") else .error e
  let valid ← match accounts.get? normalized with
    -- A derivation with a constant salt takes the time that a check would take.
    | none => .ok false
    | some account =>
      match store.verify secret account.passwordHash with
      | .ok valid => .ok valid
      | .error e => if e.isA .valueError ∨ e.isA .typeError then .ok false else .error e
  raiseIf (valid = false) invalidCredentials
  return normalized

end AccountStore

/-! ### Normal forms -/

theorem isBlank_of_isBase36 {c : PyChar} (h : c.isBase36) : c.isBlank = false := by
  simp only [PyChar.isBase36, PyChar.isDigit, PyChar.isUpper, Bool.or_eq_true, Bool.and_eq_true,
    decide_eq_true_eq] at h
  simp only [PyChar.isBlank, Bool.or_eq_false_iff, decide_eq_false_iff_not, Bool.and_eq_false_iff]
  omega

theorem code_of_isBase36 {c : PyChar} (h : c.isBase36) :
    c.code < 128 ∧ c.code ≠ 47 ∧ c.code ≠ 45 ∧ ¬(97 ≤ c.code ∧ c.code ≤ 122) := by
  simp only [PyChar.isBase36, PyChar.isDigit, PyChar.isUpper, Bool.or_eq_true, Bool.and_eq_true,
    decide_eq_true_eq] at h
  omega

namespace UnicodeTables

variable {unicode : UnicodeTables}

theorem isSpace_of_isBase36 {c : PyChar} (h : c.isBase36) : unicode.isSpace c = false := by
  rw [unicode.isSpace_ascii c (code_of_isBase36 h).1, isBlank_of_isBase36 h]

theorem upper_of_isBase36 {c : PyChar} (h : c.isBase36) : unicode.upper c = [c] := by
  obtain ⟨hascii, -, -, hlower⟩ := code_of_isBase36 h
  rw [unicode.upper_ascii c hascii, PyChar.upper_eq_self hlower]

theorem strip_of_isBase36 {text : Str} (h : ∀ c ∈ text, c.isBase36) : unicode.strip text =
    text := by
  have hkeep : ∀ {text : Str}, (∀ c ∈ text, c.isBase36) →
      text.dropWhile unicode.isSpace = text := by
    intro text h
    cases text with
    | nil => rfl
    | cons c text =>
      exact List.dropWhile_cons_of_neg
        (Bool.eq_false_iff.mp (isSpace_of_isBase36 (h c List.mem_cons_self)))
  rw [strip, hkeep h, hkeep fun c hc => h c (List.mem_reverse.mp hc), List.reverse_reverse]

/-- A normalized callsign is its own normal form. -/
theorem normalizeCallsign_of_valid {value : Str} (h : ValidCallsign value) (field : String) :
    unicode.normalizeCallsign value field = .ok value := by
  have hchars := h.isBase36
  have hupper : value.flatMap unicode.upper = value := by
    rw [List.flatMap_congr fun c hc => upper_of_isBase36 (hchars c hc), List.flatMap_singleton']
  rw [normalizeCallsign, strip_of_isBase36 hchars, hupper,
    List.takeWhile_eq_self_iff.mpr fun c hc => decide_eq_true (code_of_isBase36 (hchars c hc)).2.1,
    List.takeWhile_eq_self_iff.mpr fun c hc =>
      decide_eq_true (code_of_isBase36 (hchars c hc)).2.2.1]
  exact (validateCallsign_iff field).mpr h

theorem normalizeCallsign_valid {value normalized : Str} {field : String}
    (h : unicode.normalizeCallsign value field = .ok normalized) : ValidCallsign normalized :=
  (validateCallsign_iff "callsign").mp (validateCallsign_field h "callsign")

theorem normalizeCallsign_normalized {value normalized : Str} {field : String}
    (h : unicode.normalizeCallsign value field = .ok normalized) (field' : String) :
    unicode.normalizeCallsign normalized field' = .ok normalized :=
  normalizeCallsign_of_valid (normalizeCallsign_valid h) field'

/-- On ASCII text this is what the protocol's codec does. -/
theorem normalizeCallsign_ascii {value : Str} (h : ∀ c ∈ value, c.code < 128) (field : String) :
    unicode.normalizeCallsign value field = OpenQSP.normalizeCallsign value field := by
  have hdrop : ∀ {text : Str}, (∀ c ∈ text, c.code < 128) →
      text.dropWhile unicode.isSpace = text.dropWhile PyChar.isBlank := by
    intro text h
    induction text with
    | nil => rfl
    | cons c text ih =>
      rw [List.dropWhile_cons, List.dropWhile_cons,
        unicode.isSpace_ascii c (h c List.mem_cons_self),
        ih fun c' hc' => h c' (List.mem_cons_of_mem _ hc')]
  have hsub : ∀ {text : Str}, (∀ c ∈ text, c.code < 128) →
      ∀ c ∈ (text.dropWhile PyChar.isBlank).reverse, c.code < 128 := fun h c hc =>
    h c ((List.dropWhile_sublist _).subset (List.mem_reverse.mp hc))
  have hstrip : unicode.strip value = OpenQSP.strip value := by
    rw [strip, hdrop h, hdrop (hsub h)]
    rfl
  have hchars : ∀ c ∈ OpenQSP.strip value, c.code < 128 := fun c hc =>
    hsub h c ((List.dropWhile_sublist _).subset (List.mem_reverse.mp hc))
  have hupper : (OpenQSP.strip value).flatMap unicode.upper =
      (OpenQSP.strip value).map PyChar.upper := by
    rw [List.flatMap_congr fun c hc => unicode.upper_ascii c (hchars c hc), List.map_eq_flatMap]
  rw [normalizeCallsign, hstrip, hupper]
  rfl

end UnicodeTables

/-! ### Base64 -/

theorem PyChar.eq_scalar {c : PyChar} {d : Char} (h : c.code = d.toNat) (hd : d.toNat < 0xD800) :
    c = .scalar d := by
  cases c with
  | scalar c => rw [Char.toNat_inj.mp h]
  | surrogate unit =>
    rw [PyChar.code] at h
    omega

theorem standardDigit_spec {c : PyChar} (h : c.isBase64) : (standardDigit c).isStandardBase64 ∧
    (standardDigit c).code ≠ 61 ∧ urlSafeDigit (standardDigit c) = c := by
  by_cases hminus : c.code = 45
  · obtain rfl : c = .scalar '-' := PyChar.eq_scalar hminus (by decide)
    decide
  · by_cases hscore : c.code = 95
    · obtain rfl : c = .scalar '_' := PyChar.eq_scalar hscore (by decide)
      decide
    · have hself : standardDigit c = c := by rw [standardDigit, if_neg hminus, if_neg hscore]
      simp only [PyChar.isBase64, PyChar.isUpper, PyChar.isLower, PyChar.isDigit, Bool.or_eq_true,
        Bool.and_eq_true, decide_eq_true_eq, beq_iff_eq] at h
      rw [hself]
      refine ⟨?_, by omega, by rw [urlSafeDigit, if_neg (by omega), if_neg (by omega)]⟩
      simp only [PyChar.isStandardBase64, PyChar.isUpper, PyChar.isLower, PyChar.isDigit,
        Bool.or_eq_true, Bool.and_eq_true, decide_eq_true_eq]
      omega

theorem b64decode_b64encode (data : Bytes) : b64decode (b64encode data) = .ok data := by
  have hbase64 : ∀ c ∈ base64Encode data, c.isBase64 :=
    List.all_eq_true.mp (all_isBase64_base64Encode data)
  have hmod : ((base64Encode data).map standardDigit).length % 4 ≠ 1 := by
    rw [List.length_map, length_base64Encode]
    omega
  have hback : ((base64Encode data).map standardDigit).map urlSafeDigit = base64Encode data := by
    rw [List.map_map]
    exact (List.map_congr_left fun c hc => (standardDigit_spec (hbase64 c hc)).2.2).trans
      (List.map_id _)
  have hdigits : ∀ c ∈ (base64Encode data).map standardDigit,
      c.isStandardBase64 ∧ c.code ≠ 61 := by
    intro c hc
    obtain ⟨digit, hdigit, rfl⟩ := List.mem_map.mp hc
    obtain ⟨hstandard, hcode, -⟩ := standardDigit_spec (hbase64 digit hdigit)
    exact ⟨hstandard, hcode⟩
  rw [b64encode]
  generalize (base64Encode data).map standardDigit = digits at hmod hback hdigits
  have hpadding : ∀ c ∈ List.replicate ((4 - digits.length % 4) % 4) (PyChar.scalar '='),
      c.code = 61 := by
    intro c hc
    obtain rfl := List.eq_of_mem_replicate hc
    decide
  have hlength : (List.replicate ((4 - digits.length % 4) % 4) (PyChar.scalar '=')).length =
      (4 - digits.length % 4) % 4 := List.length_replicate
  generalize List.replicate ((4 - digits.length % 4) % 4) (PyChar.scalar '=') = padding
    at hpadding hlength
  have htake : (digits ++ padding).takeWhile (fun c => c.code ≠ 61) = digits := by
    rw [List.takeWhile_append_of_pos fun c hc => decide_eq_true (hdigits c hc).2]
    cases padding with
    | nil => exact List.append_nil _
    | cons c padding =>
      rw [List.takeWhile_cons_of_neg (by simp [hpadding]), List.append_nil]
  have hvalid : digits.all PyChar.isStandardBase64 ∧ padding.all (fun c => c.code = 61) ∧
      padding.length ≤ 2 ∧ (digits ++ padding).length % 4 = 0 := by
    rw [List.length_append]
    exact ⟨List.all_eq_true.mpr fun c hc => (hdigits c hc).1,
      List.all_eq_true.mpr fun c hc => decide_eq_true (hpadding c hc), by omega, by omega⟩
  simp only [b64decode, htake, List.drop_left]
  rw [raiseIf_of_not (not_not_intro hvalid), ok_bind, hback, base64Decode_base64Encode]
  rfl

/-- No dollar sign stands in Base64. -/
theorem dollar_notMem_b64encode (data : Bytes) : PyChar.scalar '$' ∉ b64encode data := by
  intro h
  rcases List.mem_append.mp h with h | h
  · obtain ⟨digit, hdigit, hdollar⟩ := List.mem_map.mp h
    have hstandard := (standardDigit_spec
      (List.all_eq_true.mp (all_isBase64_base64Encode data) digit hdigit)).1
    rw [hdollar] at hstandard
    exact absurd hstandard (by decide)
  · exact absurd (List.eq_of_mem_replicate h) (by decide)

/-! ### The life of an account -/

namespace AccountStore

variable (store : AccountStore)

theorem verify_representation (secret salt : Bytes) :
    store.verify secret (store.representation secret salt) = .ok true := by
  have hpieces : (store.representation secret salt).splitOn (.scalar '$') =
      [str "pbkdf2_sha256", str (toString pbkdf2Iterations), b64encode salt,
        b64encode (store.derive secret salt pbkdf2Iterations)] := by
    refine List.splitOn_intercalate _ (fun piece hpiece => ?_) (List.cons_ne_nil _ _)
    simp only [List.mem_cons, List.not_mem_nil, or_false] at hpiece
    rcases hpiece with rfl | rfl | rfl | rfl
    · decide
    · decide
    · exact dollar_notMem_b64encode _
    · exact dollar_notMem_b64encode _
  have hiterations : parseInt (str (toString pbkdf2Iterations)) = .ok 600000 := by decide
  simp only [verify, hpieces, hiterations, b64decode_b64encode, ok_bind]
  rw [raiseIf_of_not (by decide), raiseIf_of_not (by decide)]
  simp [pbkdf2Iterations]

/-- A call of `create_account`. -/
structure Creation where
  callsign : Str
  password : Str
  salt : Bytes
  now : ℤ

/-- The accounts after the calls. -/
def createAll : List Creation → Accounts → Accounts
  | [], accounts => accounts
  | c :: creations, accounts => createAll creations
      ((store.createAccount c.callsign c.password c.salt c.now).run accounts).2

/-- A call writes at most the account of its own callsign, which was not there. -/
theorem createAccount_run (callsign password : Str) (salt : Bytes) (now : ℤ) (accounts : Accounts) :
    (∃ e, (store.createAccount callsign password salt now).run accounts = (.error e, accounts)) ∨
    ∃ normalized secret, store.unicode.normalizeCallsign callsign "callsign" = .ok normalized ∧
      passwordBytes password = .ok secret ∧ normalized ∉ accounts.keys ∧ 0 ≤ now ∧
      (store.createAccount callsign password salt now).run accounts =
        (.ok normalized, accounts.set normalized ⟨store.representation secret salt, now⟩) := by
  rw [createAccount]
  cases hnormalize : store.unicode.normalizeCallsign callsign "callsign" with
  | error e =>
    left
    by_cases he : e.isA .invalidFieldError
    · exact ⟨⟨.invalidCredentialsError, "invalid account data"⟩, by simp only [he]; rfl⟩
    · exact ⟨e, by simp only [he]; rfl⟩
  | ok normalized =>
    cases hpassword : passwordBytes password with
    | error e => exact .inl ⟨e, rfl⟩
    | ok secret =>
      by_cases hadmitted : normalized ∈ accounts.keys ∨ now < 0
      · refine .inl ⟨⟨.accountExistsError, "account already exists"⟩, ?_⟩
        simp only [run_ofExcept_ok_bind, run_get_bind]
        rw [raiseIf, if_pos hadmitted]
        rfl
      · obtain ⟨hfresh, hnow⟩ := not_or.mp hadmitted
        refine .inr ⟨normalized, secret, rfl, rfl, hfresh, not_lt.mp hnow, ?_⟩
        simp only [run_ofExcept_ok_bind, run_get_bind]
        rw [raiseIf_of_not hadmitted]
        rfl

variable {store}

theorem get?_createAll {callsign : Str} {account : Account} {creations : List Creation} :
    ∀ {accounts : Accounts}, accounts.get? callsign = some account →
      (store.createAll creations accounts).get? callsign = some account := by
  induction creations with
  | nil => exact fun h => h
  | cons c creations ih =>
    intro accounts h
    refine ih ?_
    obtain ⟨e, hrun⟩ | ⟨normalized, secret, -, -, hfresh, -, hrun⟩ :=
      createAccount_run store c.callsign c.password c.salt c.now accounts
    · rw [hrun]
      exact h
    · rw [hrun, OrderedDict.get?_set_of_ne, h]
      rintro rfl
      exact hfresh (OrderedDict.mem_keys_iff.mpr ⟨_, h⟩)

/-- The password that an account was created with authenticates for every spelling of its callsign,
whatever else is created. -/
theorem authenticate_of_creates {callsign spelling password normalized : Str} {salt : Bytes}
    {now : ℤ} {accounts accounts' : Accounts}
    (hcreate : (store.createAccount callsign password salt now).run accounts =
      (.ok normalized, accounts'))
    (hspelling : store.unicode.normalizeCallsign spelling "callsign" = .ok normalized)
    (creations : List Creation) :
    store.authenticate spelling password (store.createAll creations accounts') =
      .ok normalized := by
  obtain ⟨e, hrun⟩ | ⟨normalized', secret, -, hsecret, -, -, hrun⟩ :=
    createAccount_run store callsign password salt now accounts
  · rw [hrun] at hcreate
    cases hcreate
  · rw [hrun, Prod.mk.injEq, Except.ok.injEq] at hcreate
    obtain ⟨rfl, rfl⟩ := hcreate
    have hget : (store.createAll creations
        (accounts.set normalized' ⟨store.representation secret salt, now⟩)).get? normalized' =
          some ⟨store.representation secret salt, now⟩ :=
      get?_createAll (by rw [OrderedDict.get?_set, if_pos rfl])
    simp only [authenticate, hsecret, hspelling, ok_bind, hget, verify_representation]
    rfl

end AccountStore

end OpenQSP
