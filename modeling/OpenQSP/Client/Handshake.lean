import OpenQSP.Protocol.RoundTrip
import OpenQSP.Storage.Accounts

/-!
# The authentication line

A connection begins with one line of the client, which the server answers with one of two lines. The
client concatenates a callsign and a password; the server takes the line end off and splits at the
first blank. It also takes off a carriage return before the line end, and a password may end in one.

## Main definitions

* `LoginState.authenticate`, `authenticationLine` — the client's side
* `readLine`, `serverAuthenticate`, `handshakeResponse` — the server's side
* `Authenticates` — what one line ought to achieve

## Main results

* `readLine_append` — a short line is read up to its end
* `splitCredentials_append` — the first blank ends the callsign, whatever the password contains
* `authenticates_iff` — the line achieves its purpose unless the password ends with a carriage
  return
-/

namespace OpenQSP

open Method Py

/-! ### The exchange -/

def maxHandshakeSize : ℕ := 256

/-- `b"AUTH "` -/
def authPrefix : Bytes := [65, 85, 84, 72, 32]

/-- `b"CALLSIGN "` -/
def handshakePrefix : Bytes := [67, 65, 76, 76, 83, 73, 71, 78, 32]

/-- `b"OK\n"` -/
def handshakeOk : Bytes := [79, 75, 10]

/-- `b"ERROR\n"` -/
def handshakeError : Bytes := [69, 82, 82, 79, 82, 10]

/-! ### The client -/

/-- The normalized callsign and the line that the client sends, unless it finds the callsign or the
password wrong itself. -/
def authenticationLine (unicode : UnicodeTables) (allowDevelopmentAuth : Bool) (callsign : Str)
    (password : Option Str) : Py (Str × Bytes) := do
  let normalized ← (unicode.normalizeCallsign callsign "callsign").mapError fun e =>
    if e.isA .invalidFieldError then ⟨.authenticationError, e.text⟩ else e
  match password with
  | none => do
    raiseIf (allowDevelopmentAuth = false) ⟨.authenticationError, "password is required"⟩
    return (normalized, handshakePrefix ++ (← encodeAscii normalized) ++ [10])
  | some password =>
    match encodeUtf8 password with
    | none => .error ⟨.unicodeEncodeError, "surrogates not allowed"⟩
    | some encoded => do
      raiseIf (¬(1 ≤ encoded.length ∧ encoded.length ≤ 128) ∨ 0 ∈ encoded ∨ 10 ∈ encoded)
        ⟨.authenticationError, "invalid credentials"⟩
      return (normalized, authPrefix ++ (← encodeAscii normalized) ++ [32] ++ encoded ++ [10])

/-- `_read_line`: byte by byte, up to the line end or the limit. -/
def receiveLine : ℕ → Bytes → Bytes
  | 0, _ => []
  | _ + 1, [] => []
  | limit + 1, byte :: stream => byte :: if byte = 10 then [] else receiveLine limit stream

/-- What a client's `authenticate` reads and writes of the client. -/
structure LoginState where
  /-- `_socket is not None` -/
  connected : Bool
  callsign : Option Str
  deriving DecidableEq

/-- `close`, as far as it concerns a login. -/
def LoginState.close (_ : LoginState) : LoginState := ⟨false, none⟩

/-- `authenticate`, where `exchange` is what comes back for the bytes that are sent. -/
def LoginState.authenticate (unicode : UnicodeTables) (allowDevelopmentAuth : Bool)
    (exchange : Bytes → Py Bytes) (callsign : Str) (password : Option Str) :
    Method PyError LoginState Unit := do
  let client ← get
  Method.ofExcept (raiseIf (client.connected = false)
    ⟨.connectionClosedError, "client is not connected"⟩)
  Method.ofExcept (raiseIf (client.callsign ≠ none)
    ⟨.clientError, "client is already authenticated"⟩)
  let (normalized, line) ← Method.ofExcept
    (authenticationLine unicode allowDevelopmentAuth callsign password)
  match exchange line with
  | .error e =>
    if e.isA .osError then do
      modify close
      Method.raise ⟨.connectionClosedError, "connection failed during authentication: " ++ e.text⟩
    else Method.raise e
  | .ok stream =>
    let response := receiveLine maxHandshakeSize stream
    if response ≠ handshakeOk then do
      modify close
      Method.raise ⟨.authenticationError, if response = handshakeError then "invalid credentials"
        else "invalid authentication response"⟩
    else modify fun client => { client with callsign := some normalized }

/-! ### The server -/

/-- `reader.readline()`, on a stream that ends or goes on behind the line. -/
def readLine (limit : ℕ) (stream : Bytes) : Py Bytes :=
  let line := stream.takeWhile (· ≠ 10)
  if limit < line.length then
    .error ⟨.valueError, "Separator is found, but chunk is longer than limit"⟩
  else .ok (stream.take (line.length + 1))

/-- `data.removesuffix(bytes([byte]))` -/
def removeSuffix (byte : UInt8) (data : Bytes) : Bytes :=
  if data.getLast? = some byte then data.dropLast else data

/-- `data.split(b" ", 1)`, if it has two parts. -/
def splitCredentials (data : Bytes) : Py (Bytes × Bytes) :=
  let first := data.takeWhile (· ≠ 32)
  if first.length < data.length then .ok (first, data.drop (first.length + 1))
  else .error ⟨.valueError, ""⟩

def decoded (text : Option Str) : Py Str :=
  match text with
  | some text => .ok text
  | none => .error ⟨.unicodeDecodeError, ""⟩

/-- `try: … except (…): pass` -/
def suppress {α : Type} (classes : List ErrorClass) (x : Py α) : Py (Option α) :=
  match x with
  | .ok a => .ok (some a)
  | .error e => if classes.any e.isA then .ok none else .error e

/-- `_authenticate`, with the method of the account store if there is one: the callsign of the
session. -/
def serverAuthenticate (accountStore : Option (Str → Str → Py Str)) (allowDevelopmentAuth : Bool)
    (stream : Bytes) : Py (Option Str) :=
  let line := match readLine maxFrameSize stream with
    | .ok line => line
    | .error _ => []
  if line.getLast? = some 10 ∧ line.length ≤ maxHandshakeSize then
    let value := removeSuffix 13 (removeSuffix 10 line)
    match if authPrefix <+: value then accountStore else none with
    | some authenticate => suppress [.unicodeDecodeError, .invalidCredentialsError, .valueError] do
      let (callsign, password) ← splitCredentials (value.drop authPrefix.length)
      authenticate (← decoded (decodeAscii callsign)) (← decoded (decodeUtf8 password))
    | none =>
      if allowDevelopmentAuth ∧ handshakePrefix <+: value then
        suppress [.unicodeDecodeError, .invalidFieldError] do
          validateCallsign (← decoded (decodeAscii (value.drop handshakePrefix.length))) "callsign"
      else .ok none
  else .ok none

/-- The line that the server writes. -/
def handshakeResponse (callsign : Option Str) : Bytes :=
  if callsign.isSome then handshakeOk else handshakeError

/-! ### Lines -/

/-- What stands before a delimiter is what stands before its first occurrence. -/
theorem takeWhile_ne_append {byte : UInt8} {data : Bytes} (h : byte ∉ data) (rest : Bytes) :
    (data ++ [byte] ++ rest).takeWhile (· ≠ byte) = data := by
  rw [List.append_assoc, List.takeWhile_append_of_pos, List.singleton_append,
    List.takeWhile_cons_of_neg (by simp), List.append_nil]
  intro other hother
  exact decide_eq_true fun heq => h (heq ▸ hother)

theorem readLine_append {limit : ℕ} {line : Bytes} (rest : Bytes) (hline : 10 ∉ line)
    (hlimit : line.length ≤ limit) :
    readLine limit (line ++ [10] ++ rest) = .ok (line ++ [10]) := by
  rw [readLine, takeWhile_ne_append hline, if_neg (not_lt.mpr hlimit)]
  congr 1
  rw [← List.length_singleton (a := (10 : UInt8)), ← List.length_append, List.take_left]

theorem splitCredentials_append {callsign : Bytes} (h : 32 ∉ callsign) (password : Bytes) :
    splitCredentials (callsign ++ [32] ++ password) = .ok (callsign, password) := by
  rw [splitCredentials, takeWhile_ne_append h, if_pos (by simp)]
  congr 2
  rw [← List.length_singleton (a := (32 : UInt8)), ← List.length_append, List.drop_left]

theorem removeSuffix_append (byte : UInt8) (data : Bytes) :
    removeSuffix byte (data ++ [byte]) = data := by
  rw [removeSuffix, if_pos List.getLast?_concat, List.dropLast_concat]

theorem removeSuffix_of_ne {byte : UInt8} {data : Bytes} (h : data.getLast? ≠ some byte) :
    removeSuffix byte data = data := by rw [removeSuffix, if_neg h]

theorem receiveLine_append {line : Bytes} (hline : 10 ∉ line) (rest : Bytes) :
    ∀ {limit : ℕ}, line.length < limit →
      receiveLine limit (line ++ [10] ++ rest) = line ++ [10] := by
  induction line with
  | nil =>
    intro limit hlimit
    obtain ⟨limit, rfl⟩ := Nat.exists_eq_add_one.mpr hlimit
    rfl
  | cons byte line ih =>
    intro limit hlimit
    obtain ⟨limit, rfl⟩ := Nat.exists_eq_add_one.mpr (Nat.zero_lt_of_lt hlimit)
    obtain ⟨hbyte, hline⟩ := not_or.mp (List.mem_cons.not.mp hline)
    rw [List.cons_append, List.cons_append, receiveLine, if_neg (Ne.symm hbyte),
      ih hline (Nat.lt_of_succ_lt_succ hlimit)]

@[simp] theorem decoded_some (text : Str) : decoded (some text) = .ok text := rfl

/-! ### Callsigns and passwords -/

/-- No byte of a callsign is a delimiter of the line. -/
theorem ValidCallsign.encoded {callsign : Str} (h : ValidCallsign callsign) :
    ∃ name, encodeAscii callsign = .ok name ∧ name.length ≤ maxCallsignLength ∧
      32 ∉ name ∧ 10 ∉ name := by
  have hascii : callsign.all (·.code < 128) := List.all_eq_true.mpr fun c hc =>
    decide_eq_true (code_of_isBase36 (h.isBase36 c hc)).1
  obtain ⟨data, hdata⟩ := h
  obtain ⟨htext, hall, -⟩ := callsignBytes_eq_ok hdata
  obtain ⟨hencode, -, -, hlength⟩ := textBytes_eq_ok htext
  have hname : encodeAscii callsign = .ok (callsign.map fun c => UInt8.ofNat c.code) := by
    rw [encodeAscii, if_pos hascii]
  have hbytes := decodeAscii_eq_some (decodeAscii_of_encodeAscii hname)
  rw [hencode, Option.some.injEq] at hbytes
  rw [← hbytes] at hname
  exact ⟨data, hname, hlength, fun h => absurd (hall 32 h) (by decide),
    fun h => absurd (hall 10 h) (by decide)⟩

/-- A character whose last byte is an ASCII byte is that byte. -/
theorem toNat_of_getLast?_utf8EncodeChar {c : Char} {byte : UInt8}
    (h : (String.utf8EncodeChar c).getLast? = some byte) (hbyte : byte.toNat < 128) :
    c.val.toNat = byte.toNat := by
  rw [String.utf8EncodeChar] at h
  have hlast : ∀ n : ℕ, (UInt8.ofNat (n % 64 + 128)).toNat = n % 64 + 128 := by
    intro n
    have hmod : (UInt8.ofNat (n % 64 + 128)).toNat = (n % 64 + 128) % 256 := rfl
    omega
  by_cases hascii : c.val.toNat ≤ 0x7f
  · rw [if_pos hascii] at h
    obtain rfl : UInt8.ofNat c.val.toNat = byte := Option.some.inj h
    have hmod : (UInt8.ofNat c.val.toNat).toNat = c.val.toNat % 256 := rfl
    omega
  · rw [if_neg hascii] at h
    -- Every longer form ends with a continuation byte.
    have hcontinuation : byte = UInt8.ofNat (c.val.toNat % 64 + 128) := by
      split at h
      · exact (Option.some.inj h).symm
      · split at h
        · exact (Option.some.inj h).symm
        · exact (Option.some.inj h).symm
    rw [hcontinuation, hlast] at hbyte
    omega

/-- The bytes of a password end with a carriage return when the password does. -/
theorem getLast?_encodeUtf8 {password : Str} {secret : Bytes}
    (h : encodeUtf8 password = some secret) :
    secret.getLast? = some 13 ↔ password.getLast? = some (.scalar '\r') := by
  obtain ⟨chars, rfl⟩ := scalars_of_encodeUtf8 h
  rw [encodeUtf8_scalars, Option.some.injEq] at h
  subst h
  rcases List.eq_nil_or_concat chars with rfl | ⟨chars, c, rfl⟩
  · simp
  rw [List.concat_eq_append, List.flatMap_append, List.flatMap_singleton, List.map_append,
    List.map_singleton, List.getLast?_concat,
    List.getLast?_append_of_ne_nil _ String.utf8EncodeChar_ne_nil]
  constructor
  · intro hlast
    have hval := toNat_of_getLast?_utf8EncodeChar hlast (by decide)
    have hc : c = '\r' := Char.toNat_inj.mp hval
    rw [hc]
  · intro hc
    obtain rfl := PyChar.scalar.inj (Option.some.inj hc)
    decide

/-! ### What a line achieves -/

/-- What the client sends for a password that it admits. -/
theorem authenticationLine_eq_ok {unicode : UnicodeTables} {allowDevelopmentAuth : Bool}
    {callsign password normalized : Str} {line : Bytes}
    (h : authenticationLine unicode allowDevelopmentAuth callsign (some password) =
      .ok (normalized, line)) :
    unicode.normalizeCallsign callsign "callsign" = .ok normalized ∧
    ∃ secret name, encodeUtf8 password = some secret ∧
      (1 ≤ secret.length ∧ secret.length ≤ 128) ∧ 0 ∉ secret ∧ 10 ∉ secret ∧
      encodeAscii normalized = .ok name ∧ line = authPrefix ++ name ++ [32] ++ secret ++ [10] := by
  rw [authenticationLine] at h
  cases hnormalize : unicode.normalizeCallsign callsign "callsign" with
  | error e =>
    rw [hnormalize] at h
    cases h
  | ok normalized' =>
  rw [hnormalize, Except.mapError, ok_bind] at h
  cases hsecret : encodeUtf8 password with
  | none =>
    simp only [hsecret] at h
    cases h
  | some secret =>
    simp only [hsecret, bind_eq_ok, raiseIf_eq_ok, not_or, not_not, pure_eq_ok, Except.ok.injEq,
      Prod.mk.injEq] at h
    obtain ⟨-, ⟨hlength, hzero, hlf⟩, name, hname, rfl, rfl⟩ := h
    exact ⟨rfl, secret, name, rfl, hlength, hzero, hlf, hname, rfl⟩

theorem authenticationLine_of_accepted {unicode : UnicodeTables}
    {callsign password normalized : Str} {secret name : Bytes}
    (hnormalize : unicode.normalizeCallsign callsign "callsign" = .ok normalized)
    (hsecret : encodeUtf8 password = some secret)
    (hlength : 1 ≤ secret.length ∧ secret.length ≤ 128) (hzero : 0 ∉ secret) (hlf : 10 ∉ secret)
    (hname : encodeAscii normalized = .ok name) (allowDevelopmentAuth : Bool) :
    authenticationLine unicode allowDevelopmentAuth callsign (some password) =
      .ok (normalized, authPrefix ++ name ++ [32] ++ secret ++ [10]) := by
  rw [authenticationLine, hnormalize, Except.mapError, ok_bind]
  simp only [hsecret]
  rw [raiseIf_of_not (not_or.mpr ⟨not_not_intro hlength, not_or.mpr ⟨hzero, hlf⟩⟩), hname]
  rfl

theorem length_authenticationLine {name secret : Bytes} (hname : name.length ≤ maxCallsignLength)
    (hsecret : secret.length ≤ 128) :
    (authPrefix ++ name ++ [32] ++ secret ++ [10]).length ≤ maxHandshakeSize := by
  rw [maxCallsignLength] at hname
  simp only [List.length_append, authPrefix, maxHandshakeSize, List.length_cons, List.length_nil]
  omega

/-- What the server makes of a line: the password loses a carriage return at its end. -/
theorem serverAuthenticate_line {name secret : Bytes} (hname : name.length ≤ maxCallsignLength)
    (hblank : 32 ∉ name) (hlf : 10 ∉ name)
    (hsecret : secret ≠ []) (hlength : secret.length ≤ 128) (hsecretLf : 10 ∉ secret)
    (authenticate : Str → Str → Py Str) (allowDevelopmentAuth : Bool) (rest : Bytes) :
    serverAuthenticate (some authenticate) allowDevelopmentAuth
        (authPrefix ++ name ++ [32] ++ secret ++ [10] ++ rest) =
      suppress [.unicodeDecodeError, .invalidCredentialsError, .valueError] (do
        authenticate (← decoded (decodeAscii name))
          (← decoded (decodeUtf8 (removeSuffix 13 secret)))) := by
  have hfits := length_authenticationLine hname hlength
  have hread : readLine maxFrameSize (authPrefix ++ name ++ [32] ++ secret ++ [10] ++ rest) =
      .ok (authPrefix ++ name ++ [32] ++ secret ++ [10]) := by
    refine readLine_append rest ?_ ?_
    · simp only [List.mem_append, not_or, List.mem_singleton]
      exact ⟨⟨⟨by decide, hlf⟩, by decide⟩, hsecretLf⟩
    · rw [List.length_append] at hfits
      exact (Nat.le_add_right _ _).trans (hfits.trans (by decide))
  have hstrip : removeSuffix 13 (authPrefix ++ name ++ [32] ++ secret) =
      authPrefix ++ (name ++ [32] ++ removeSuffix 13 secret) := by
    rw [removeSuffix, removeSuffix, List.getLast?_append_of_ne_nil _ hsecret]
    split
    · rw [List.dropLast_append_of_ne_nil hsecret]
      simp only [List.append_assoc]
    · simp only [List.append_assoc]
  have hprefix : authPrefix <+: authPrefix ++ (name ++ [32] ++ removeSuffix 13 secret) :=
    List.prefix_append _ _
  rw [serverAuthenticate, hread]
  simp only [List.getLast?_concat, hfits, and_self, if_true, removeSuffix_append, hstrip, hprefix,
    List.drop_left, splitCredentials_append hblank, ok_bind]

/-- What the line for a callsign and a password ought to achieve. -/
structure Authenticates (store : AccountStore) (callsign password normalized : Str)
    (line : Bytes) : Prop where
  /-- The line is not too long. -/
  fits : line.length ≤ maxHandshakeSize
  /-- The server asks its account store about this callsign and this password, whatever the store
  is and whatever follows the line. -/
  extracted : ∀ (authenticate : Str → Str → Py Str) (allowDevelopmentAuth : Bool) (rest : Bytes),
    serverAuthenticate (some authenticate) allowDevelopmentAuth (line ++ rest) =
      suppress [.unicodeDecodeError, .invalidCredentialsError, .valueError]
        (authenticate normalized password)
  /-- Once an account was created with the password, the client is logged in, and the server
  serves the callsign. -/
  admitted : ∀ {owner : Str} {salt : Bytes} {now : ℤ} {accounts accounts' : Accounts},
    (store.createAccount owner password salt now).run accounts = (.ok normalized, accounts') →
    ∀ (creations : List AccountStore.Creation) (serverDevelopmentAuth clientDevelopmentAuth : Bool)
      (later : Bytes),
      let answer := serverAuthenticate (some fun callsign password =>
        store.authenticate callsign password (store.createAll creations accounts'))
        serverDevelopmentAuth
      answer line = .ok (some normalized) ∧
      (LoginState.authenticate store.unicode clientDevelopmentAuth
        (fun sent => do return handshakeResponse (← answer sent) ++ later)
        callsign (some password)).run ⟨true, none⟩ = (.ok (), ⟨true, some normalized⟩)

/-- The line that a client sends achieves what it ought to exactly when the password does not end
with a carriage return. -/
theorem authenticates_iff {store : AccountStore} {allowDevelopmentAuth : Bool}
    {callsign password normalized : Str} {line : Bytes}
    (h : authenticationLine store.unicode allowDevelopmentAuth callsign (some password) =
      .ok (normalized, line)) :
    Authenticates store callsign password normalized line ↔
      password.getLast? ≠ some (.scalar '\r') := by
  obtain ⟨hnormalize, secret, name, hsecret, ⟨hmin, hmax⟩, hzero, hlf, hname, rfl⟩ :=
    authenticationLine_eq_ok h
  obtain ⟨name', hname', hshort, hblank, hnameLf⟩ :=
    (UnicodeTables.normalizeCallsign_valid hnormalize).encoded
  obtain rfl : name' = name := Except.ok.inj (hname'.symm.trans hname)
  have hne : secret ≠ [] := List.ne_nil_of_length_pos hmin
  have hserver := serverAuthenticate_line hshort hblank hnameLf hne hmax hlf
  simp only [decodeAscii_of_encodeAscii hname, decoded_some, ok_bind] at hserver
  rw [Ne, ← getLast?_encodeUtf8 hsecret]
  constructor
  · intro hauthenticates hreturn
    -- A store that tells the password from all others sees another one.
    have hextracted := hauthenticates.extracted
      (fun _ asked => if asked = password then .ok asked else .error invalidCredentials) false []
    simp only [hserver, if_true] at hextracted
    cases hdecode : decodeUtf8 (removeSuffix 13 secret) with
    | none =>
      rw [hdecode] at hextracted
      cases hextracted
    | some asked =>
      have hother : asked ≠ password := by
        rintro rfl
        have hsame := Option.some.inj (hsecret.symm.trans (encodeUtf8_of_decodeUtf8 hdecode))
        have hlength := congrArg List.length hsame
        rw [removeSuffix, if_pos hreturn, List.length_dropLast] at hlength
        omega
      rw [hdecode] at hextracted
      simp only [decoded_some, ok_bind, if_neg hother] at hextracted
      cases hextracted
  · intro hreturn
    simp only [removeSuffix_of_ne hreturn, decodeUtf8_of_encodeUtf8 hsecret, decoded_some, ok_bind]
      at hserver
    refine ⟨length_authenticationLine hshort hmax, hserver, ?_⟩
    intro owner salt now accounts accounts' hcreate creations serverDevelopmentAuth
      clientDevelopmentAuth later answer
    have hanswer : answer (authPrefix ++ name' ++ [32] ++ secret ++ [10]) =
        .ok (some normalized) := by
      have hstore := AccountStore.authenticate_of_creates hcreate
        (UnicodeTables.normalizeCallsign_normalized hnormalize "callsign") creations
      rw [← List.append_nil (authPrefix ++ name' ++ [32] ++ secret ++ [10])]
      exact (hserver _ serverDevelopmentAuth []).trans (by rw [hstore]; rfl)
    refine ⟨hanswer, ?_⟩
    have hline := authenticationLine_of_accepted hnormalize hsecret ⟨hmin, hmax⟩ hzero hlf
      hname clientDevelopmentAuth
    have hresponse : receiveLine maxHandshakeSize (handshakeOk ++ later) = handshakeOk :=
      receiveLine_append (show 10 ∉ [79, 75] by decide) later (by decide)
    rw [LoginState.authenticate, run_get_bind, raiseIf_of_not (by decide),
      raiseIf_of_not (by decide), hline]
    simp only [run_ofExcept_ok_bind, hanswer, ok_bind, pure_eq_ok, handshakeResponse,
      Option.isSome_some, if_true, hresponse]
    rfl

/-- A store whose key derivation keeps the password. -/
def plainStore : AccountStore := ⟨fun secret _ _ => secret, UnicodeTables.ascii⟩

/-- A password with a blank. -/
theorem authenticates_iff_blank : Authenticates plainStore (str "ea1abc-7") (str "a b")
    (str "EA1ABC") (authPrefix ++ [69, 65, 49, 65, 66, 67, 32, 97, 32, 98, 10]) :=
  (authenticates_iff (show authenticationLine plainStore.unicode false (str "ea1abc-7")
    (some (str "a b")) = .ok (str "EA1ABC", _) by decide)).mpr (by decide)

/-- The accounts after one call. -/
def returnAccounts : Except PyError Str × Accounts :=
  (plainStore.createAccount (str "EA1ABC") (str "a\r") [] 0).run OrderedDict.empty

/-- A password that ends with a carriage return is admitted by the client and by the store, and the
server refuses it. -/
theorem returnPassword_refused :
    let line := authPrefix ++ [69, 65, 49, 65, 66, 67, 32, 97, 13, 10]
    authenticationLine plainStore.unicode false (str "EA1ABC") (some (str "a\r")) =
      .ok (str "EA1ABC", line) ∧
    returnAccounts.1 = .ok (str "EA1ABC") ∧
    serverAuthenticate (some fun callsign password =>
      plainStore.authenticate callsign password returnAccounts.2) false line = .ok none ∧
    ¬Authenticates plainStore (str "EA1ABC") (str "a\r") (str "EA1ABC") line := by
  intro line
  have hrefused : serverAuthenticate (some fun callsign password =>
      plainStore.authenticate callsign password returnAccounts.2) false line = .ok none := by
    decide +kernel
  refine ⟨by decide, by decide, hrefused, fun hauthenticates => ?_⟩
  have hcreate : (plainStore.createAccount (str "EA1ABC") (str "a\r") [] 0).run OrderedDict.empty =
      (.ok (str "EA1ABC"), returnAccounts.2) := Prod.ext (by decide) rfl
  have hanswer := (hauthenticates.admitted hcreate [] false false []).1
  cases hrefused.symm.trans hanswer

end OpenQSP
