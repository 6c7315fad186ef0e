import OpenQSP.Protocol.Codec

/-!
# Carriage of Core frames over APRS messages

A Core frame travels as a handful of short APRS message bodies. The legacy profile Q1 cuts its
Base64url text into pieces; the compact profile Q2 cuts the frame itself and writes each piece,
behind a two-byte header, in basE91. Both name the transaction by three base-36 characters, which
for Q2 is the name of one byte.

## Main definitions

* `base36`, `parseBase36`, `base91Encode`, `base91Decode`
* `encodeFrameText`, `decodeFrameText` — the Base64url text of Q1
* `APRSFragment`, `APRSFragment.body`
* `fragmentFrame`, `fragmentFrameV2`, `parseFragment`
-/

namespace OpenQSP

def dataChunkSize : ℕ := 48

def v2DataChunkSize : ℕ := 50

def maxFragments : ℕ := 16

def maxAprsBody : ℕ := 67

/-! ### Base 36 -/

/-- The character of a base-36 digit. -/
def base36Digit (digit : ℕ) : PyChar :=
  .scalar (Char.ofNat (if digit < 10 then 48 + digit else 55 + digit))

/-- The value of a base-36 character. -/
def base36Value (c : PyChar) : ℕ := if c.isDigit then c.code - 48 else c.code - 55

/-- The base-36 digits of a value, most significant first. -/
def base36Digits : ℕ → ℕ → Str
  | 0, _ => []
  | width + 1, value => base36Digits width (value / 36) ++ [base36Digit (value % 36)]

def base36 (value width : ℕ) : Py Str := do
  raiseIf (¬value < 36 ^ width)
    (.carriage ("value does not fit in " ++ toString width ++ " base36 characters"))
  return base36Digits width value

def parseBase36 (text : Str) (width : ℕ) : Py ℕ := do
  raiseIf (text.length ≠ width ∨ ¬text.all PyChar.isBase36)
    (.carriage ("expected " ++ toString width ++ " uppercase base36 characters"))
  return text.foldl (fun value c => value * 36 + base36Value c) 0

/-! ### basE91 -/

/-- The printable ASCII characters without the three that APRS reserves. -/
def base91Alphabet : Str :=
  ((List.range 94).map fun i => PyChar.scalar (Char.ofNat (33 + i))).filter fun c =>
    c.code ≠ 123 && c.code ≠ 124 && c.code ≠ 126

/-- The two characters of a value below `91 * 91`. -/
def base91Pair (encoded : ℕ) : Str :=
  [base91Alphabet.getD (encoded % 91) default, base91Alphabet.getD (encoded / 91) default]
where
  default : PyChar := .scalar '!'

/-- The encoder's loop: `value` holds `bits` bits that have not been written yet. -/
def base91EncodeLoop : Bytes → ℕ → ℕ → Str
  | [], value, bits =>
    if bits = 0 then []
    else if 7 < bits ∨ 90 < value then base91Pair value
    else (base91Pair value).take 1
  | byte :: data, value, bits =>
    let value := value ||| byte.toNat <<< bits
    let bits := bits + 8
    if 13 < bits then
      let encoded := value &&& 8191
      if 88 < encoded then
        base91Pair encoded ++ base91EncodeLoop data (value >>> 13) (bits - 13)
      else
        base91Pair (value &&& 16383) ++ base91EncodeLoop data (value >>> 14) (bits - 14)
    else base91EncodeLoop data value bits

def base91Encode (data : Bytes) : Str := base91EncodeLoop data 0 0

/-- Write the complete bytes of the accumulator; `fuel` bounds the number of bytes. -/
def base91Drain : ℕ → ℕ → ℕ → Bytes × ℕ × ℕ
  | 0, accumulator, bits => ([], accumulator, bits)
  | fuel + 1, accumulator, bits =>
    if 8 ≤ bits then
      let (output, rest) := base91Drain fuel (accumulator >>> 8) (bits - 8)
      (UInt8.ofNat accumulator :: output, rest)
    else ([], accumulator, bits)

/-- The decoder's loop. `value` is the first character of a pair that waits for its second. -/
def base91DecodeLoop : Str → Option ℕ → ℕ → ℕ → Py Bytes
  | [], none, _, _ => .ok []
  | [], some value, accumulator, bits =>
    .ok (base91Drain (bits + 7) (accumulator ||| value <<< bits) (bits + 7)).1
  | c :: text, value, accumulator, bits =>
    match base91Alphabet.idxOf? c with
    | none => .error (.carriage "invalid Base91 character")
    | some decoded =>
      match value with
      | none => base91DecodeLoop text (some decoded) accumulator bits
      | some value => do
        let value := value + decoded * 91
        let accumulator := accumulator ||| value <<< bits
        let bits := bits + if 88 < value &&& 8191 then 13 else 14
        let (output, accumulator, bits) := base91Drain bits accumulator bits
        return output ++ (← base91DecodeLoop text none accumulator bits)

def base91Decode (text : Str) : Py Bytes := do
  raiseIf (text = []) (.carriage "invalid Base91 text")
  base91DecodeLoop text none 0 0

/-! ### Base64url -/

/-- The Base64url character of a value below 64. -/
def base64Digit (value : ℕ) : PyChar :=
  .scalar (Char.ofNat (if value < 26 then 65 + value else if value < 52 then 71 + value
    else if value < 62 then value - 4 else if value = 62 then 45 else 95))

/-- The value of a Base64url character. -/
def base64Value (c : PyChar) : ℕ :=
  if c.isUpper then c.code - 65 else if c.isLower then c.code - 71
  else if c.isDigit then c.code + 4 else if c.code = 45 then 62 else 63

/-- `base64.urlsafe_b64encode(data).rstrip(b"=")` -/
def base64Encode : Bytes → Str
  | a :: b :: c :: data =>
    let n := a.toNat * 65536 + b.toNat * 256 + c.toNat
    [base64Digit (n / 262144), base64Digit (n / 4096 % 64), base64Digit (n / 64 % 64),
      base64Digit (n % 64)] ++ base64Encode data
  | [a, b] =>
    let n := a.toNat * 1024 + b.toNat * 4
    [base64Digit (n / 4096), base64Digit (n / 64 % 64), base64Digit (n % 64)]
  | [a] => [base64Digit (a.toNat / 4), base64Digit (a.toNat * 16 % 64)]
  | [] => []

/-- `base64.b64decode` of Base64url characters, whose padding is supplied by the caller. The bits
left over in the last character are not checked. -/
def base64Decode : Str → Bytes
  | a :: b :: c :: d :: text =>
    let n := base64Value a * 262144 + base64Value b * 4096 + base64Value c * 64 + base64Value d
    [UInt8.ofNat (n / 65536), UInt8.ofNat (n / 256), UInt8.ofNat n] ++ base64Decode text
  | [a, b, c] =>
    let n := base64Value a * 4096 + base64Value b * 64 + base64Value c
    [UInt8.ofNat (n / 1024), UInt8.ofNat (n / 4)]
  | [a, b] => [UInt8.ofNat ((base64Value a * 64 + base64Value b) / 16)]
  | _ => []

/-- Check that a frame is a Core frame of admissible size. -/
def checkFrame (frame : Bytes) : Py Unit := do
  raiseIf (frame = [] ∨ maxFrameSize < frame.length)
    (.carriage "frame size is outside the OpenQSP bounds")
  let _ ← decodeFrameWithFlags frame

def encodeFrameText (frame : Bytes) : Py Str := do
  checkFrame frame
  return base64Encode frame

def decodeFrameText (text : Str) : Py Bytes := do
  raiseIf (text = [] ∨ ¬text.all PyChar.isBase64)
    (.carriage "invalid unpadded Base64url text")
  raiseIf (text.length % 4 = 1) (.carriage "impossible unpadded Base64url length")
  let frame := base64Decode text
  match decodeFrameWithFlags frame with
  | .ok _ => return frame
  | .error _ => .error (.carriage "invalid OpenQSP frame carriage")

/-! ### Fragments -/

structure APRSFragment where
  transactionId : Str
  index : ℕ
  total : ℕ
  data : Str
  messageId : Option Str := none
  version : ℕ := 1
  rawData : Option Bytes := none
  deriving DecidableEq

/-- The brace that opens an APRS message id. -/
def openBrace : PyChar := .scalar (Char.ofNat 123)

def boundsText : String := "fragment index or count is outside profile bounds"

/-- The number of a Q2 transaction, which must fit in one byte. -/
def transactionByte (transactionId : Str) : Py UInt8 := do
  let value ← parseBase36 transactionId 3
  raiseIf (0xFF < value) (.carriage "Q2 transaction ID must fit in one byte")
  return UInt8.ofNat value

/-- The APRS message body of a fragment. -/
def APRSFragment.body (fragment : APRSFragment) : Py Str :=
  if fragment.version = 2 then do
    let transaction ← transactionByte fragment.transactionId
    raiseIf (¬(fragment.index < fragment.total ∧ fragment.total ≤ maxFragments))
      (.carriage boundsText)
    match fragment.rawData with
    | none => .error (.carriage "Q2 fragment is missing raw data")
    | some raw => do
      let descriptor := UInt8.ofNat (fragment.index <<< 4 ||| (fragment.total - 1))
      let text := str "Q2" ++ base91Encode ([transaction, descriptor] ++ raw)
      raiseIf (maxAprsBody < text.length)
        (.carriage "Q2 fragment exceeds APRS message body limit")
      return text
  else do
    let text := str "Q1:" ++ fragment.transactionId ++ str ":" ++ (← base36 fragment.index 2) ++
      str "/" ++ (← base36 fragment.total 2) ++ str ":" ++ fragment.data
    return match fragment.messageId with
      | none => text
      | some messageId => text ++ [openBrace] ++ messageId

/-- The consecutive slices of `size` elements. -/
def chunks {α : Type} (size : ℕ) (l : List α) : List (List α) :=
  (List.range ((l.length + size - 1) / size)).map fun i => (l.drop (size * i)).take size

def fragmentCountText : String := "frame exceeds the 16-fragment profile limit"

/-- Legacy Q1 fragmentation. -/
def fragmentFrame (frame : Bytes) (transactionId : Str) : Py (List APRSFragment) := do
  let _ ← parseBase36 transactionId 3
  let pieces := chunks dataChunkSize (← encodeFrameText frame)
  raiseIf (pieces = [] ∨ maxFragments < pieces.length) (.carriage fragmentCountText)
  return pieces.zipIdx.map fun (piece, index) => ⟨transactionId, index, pieces.length, piece,
    none, 1, none⟩

/-- Compact Q2 fragmentation. -/
def fragmentFrameV2 (frame : Bytes) (transactionId : Str) : Py (List APRSFragment) := do
  let _ ← transactionByte transactionId
  checkFrame frame
  let pieces := chunks v2DataChunkSize frame
  raiseIf (pieces = [] ∨ maxFragments < pieces.length) (.carriage fragmentCountText)
  let fragments := pieces.zipIdx.map fun (piece, index) =>
    (⟨transactionId, index, pieces.length, base91Encode piece, none, 2, some piece⟩ : APRSFragment)
  -- Every body must fit the APRS message; the bodies themselves are not kept.
  let _ ← fragments.mapM APRSFragment.body
  return fragments

def parseQ2 (body : Str) : Py APRSFragment := do
  raiseIf (openBrace ∈ body) (.carriage "Q2 fragments must not use APRS message IDs")
  let decoded ← base91Decode (body.drop 2)
  raiseIf (decoded.length < 3) (.carriage "Q2 fragment is truncated")
  let transaction := (decoded.getD 0 0).toNat
  let descriptor := (decoded.getD 1 0).toNat
  let index := descriptor >>> 4
  let total := (descriptor &&& 0x0F) + 1
  raiseIf (total ≤ index) (.carriage boundsText)
  let raw := decoded.drop 2
  raiseIf (raw = [] ∨ v2DataChunkSize < raw.length)
    (.carriage "Q2 fragment payload is outside profile bounds")
  return ⟨← base36 transaction 3, index, total, base91Encode raw, none, 2, some raw⟩

/-- `Q1:([0-9A-Z]{3}):([0-9A-Z]{2})/([0-9A-Z]{2}):([A-Za-z0-9_-]{1,48})`, matched completely: the
transaction, the two counts and the data. -/
def matchFragment (text : Str) : Option (Str × Str × Str × Str) :=
  let transactionId := (text.drop 3).take 3
  let index := (text.drop 7).take 2
  let total := (text.drop 10).take 2
  let data := text.drop 13
  if text.take 3 = str "Q1:" ∧ (text.drop 6).take 1 = str ":" ∧ (text.drop 9).take 1 = str "/" ∧
      (text.drop 12).take 1 = str ":" ∧ transactionId.all PyChar.isBase36 ∧
      index.all PyChar.isBase36 ∧ total.all PyChar.isBase36 ∧ data.all PyChar.isBase64 ∧
      data ≠ [] ∧ data.length ≤ dataChunkSize then
    some (transactionId, index, total, data)
  else none

/-- `text.rsplit("\x7b", 1)`, for a text with such a brace: what precedes the last one and what
follows it. -/
def splitLastBrace (text : Str) : Str × Str :=
  let tail := (text.reverse.takeWhile (· ≠ openBrace)).reverse
  (text.take (text.length - tail.length - 1), tail)

def parseFragment (body : Str) : Py APRSFragment := do
  if body.take 2 = str "Q2" then parseQ2 body
  else
    let (carriage, messageId) :=
      if openBrace ∈ body then ((splitLastBrace body).1, some (splitLastBrace body).2)
      else (body, none)
    raiseIf (∃ id ∈ messageId, id = [] ∨ 5 < id.length ∨ ¬id.all PyChar.isBase36)
      (.carriage "invalid APRS message ID")
    match matchFragment carriage with
    | none => .error (.carriage "malformed OpenQSP fragment")
    | some (transactionId, rawIndex, rawTotal, data) => do
      let index ← parseBase36 rawIndex 2
      let total ← parseBase36 rawTotal 2
      raiseIf (¬(1 ≤ total ∧ total ≤ maxFragments) ∨ total ≤ index) (.carriage boundsText)
      return ⟨transactionId, index, total, data, messageId, 1, none⟩

/-! ### What a parsed fragment is -/

section Parse

open Py

theorem matchFragment_eq_some {text transactionId index total data : Str}
    (h : matchFragment text = some (transactionId, index, total, data)) :
    text.take 3 = str "Q1:" ∧ transactionId = (text.drop 3).take 3 ∧ index = (text.drop 7).take 2 ∧
      total = (text.drop 10).take 2 ∧ transactionId.all PyChar.isBase36 ∧
      (text.drop 12).take 1 = str ":" := by
  unfold matchFragment at h
  dsimp only at h
  split at h
  · next hm =>
    simp only [Option.some.injEq, Prod.mk.injEq] at h
    obtain ⟨rfl, rfl, rfl, rfl⟩ := h
    exact ⟨hm.1, rfl, rfl, rfl, hm.2.2.2.2.1, hm.2.2.2.1⟩
  · cases h

theorem parseBase36_eq_ok {text : Str} {width value : ℕ} (h : parseBase36 text width = .ok value) :
    text.length = width ∧ text.all PyChar.isBase36 ∧
      value = text.foldl (fun value c => value * 36 + base36Value c) 0 := by
  obtain ⟨_, hcheck, h⟩ := bind_eq_ok.mp h
  simp only [raiseIf_eq_ok, ne_eq, not_or, not_not] at hcheck
  exact ⟨hcheck.1, hcheck.2, (Except.ok.inj h).symm⟩

theorem base36_eq_ok {value width : ℕ} {text : Str} (h : base36 value width = .ok text) :
    value < 36 ^ width ∧ text = base36Digits width value := by
  obtain ⟨_, hcheck, h⟩ := bind_eq_ok.mp h
  simp only [raiseIf_eq_ok, not_not] at hcheck
  exact ⟨hcheck, (Except.ok.inj h).symm⟩

@[simp] theorem length_base36Digits (width value : ℕ) : (base36Digits width value).length =
    width := by
  induction width generalizing value with
  | zero => rfl
  | succ width ih => simp [base36Digits, ih]

/-- The two ways in which a body is a fragment. -/
theorem parseFragment_cases {body : Str} {fragment : APRSFragment}
    (h : parseFragment body = .ok fragment) :
    (body.take 2 = str "Q2" ∧ parseQ2 body = .ok fragment) ∨
    (body.take 3 = str "Q1:" ∧ fragment.version = 1 ∧ fragment.rawData = none ∧
      fragment.transactionId.length = 3 ∧ fragment.transactionId.all PyChar.isBase36 ∧
      fragment.index < fragment.total ∧ fragment.total ≤ maxFragments) := by
  by_cases hq2 : body.take 2 = str "Q2"
  · rw [parseFragment, if_pos hq2] at h
    exact .inl ⟨hq2, h⟩
  refine .inr ?_
  rw [parseFragment, if_neg hq2] at h
  -- What precedes the message id is matched; it is a prefix of the body.
  obtain ⟨n, messageId, h⟩ : ∃ n messageId, (do
      raiseIf (∃ id ∈ messageId, id = [] ∨ 5 < id.length ∨ ¬id.all PyChar.isBase36)
        (.carriage "invalid APRS message ID")
      match matchFragment (body.take n) with
      | none => .error (.carriage "malformed OpenQSP fragment")
      | some (transactionId, rawIndex, rawTotal, data) => do
        let index ← parseBase36 rawIndex 2
        let total ← parseBase36 rawTotal 2
        raiseIf (¬(1 ≤ total ∧ total ≤ maxFragments) ∨ total ≤ index) (.carriage boundsText)
        return ⟨transactionId, index, total, data, messageId, 1, none⟩ : Py APRSFragment) =
      .ok fragment := by
    by_cases hb : openBrace ∈ body
    · simp only [hb, if_true] at h
      exact ⟨_, _, h⟩
    · simp only [hb, if_false] at h
      refine ⟨body.length, none, ?_⟩
      rw [List.take_length]
      exact h
  obtain ⟨-, -, h⟩ := bind_eq_ok.mp h
  split at h
  · cases h
  · next transactionId rawIndex rawTotal data hm =>
    obtain ⟨hq1, hid, -, -, hall, hcolon⟩ := matchFragment_eq_some hm
    obtain ⟨index, -, h⟩ := bind_eq_ok.mp h
    obtain ⟨total, -, h⟩ := bind_eq_ok.mp h
    obtain ⟨_, hbounds, h⟩ := bind_eq_ok.mp h
    simp only [raiseIf_eq_ok, not_or, not_not, not_le] at hbounds
    obtain rfl := Except.ok.inj h
    have hlen : 13 ≤ (body.take n).length := by
      have := congrArg List.length hcolon
      rw [List.length_take, List.length_drop] at this
      have hone : (str ":").length = 1 := rfl
      omega
    refine ⟨?_, rfl, rfl, ?_, hall, hbounds.2, hbounds.1.2⟩
    · have hn : min 3 n = 3 := by
        rw [List.length_take] at hlen
        omega
      rwa [List.take_take, hn] at hq1
    · show transactionId.length = 3
      rw [hid, List.length_take, List.length_drop]
      omega

theorem parseQ2_eq_ok {body : Str} {fragment : APRSFragment} (h : parseQ2 body = .ok fragment) :
    fragment.version = 2 ∧ fragment.rawData.isSome ∧
      (∃ byte : UInt8, fragment.transactionId = base36Digits 3 byte.toNat) ∧
      fragment.index < fragment.total ∧ fragment.total ≤ maxFragments := by
  obtain ⟨-, -, h⟩ := bind_eq_ok.mp h
  obtain ⟨decoded, -, h⟩ := bind_eq_ok.mp h
  obtain ⟨-, -, h⟩ := bind_eq_ok.mp h
  obtain ⟨_, hbounds, h⟩ := bind_eq_ok.mp h
  obtain ⟨-, -, h⟩ := bind_eq_ok.mp h
  obtain ⟨transactionId, hid, h⟩ := bind_eq_ok.mp h
  simp only [raiseIf_eq_ok, not_le] at hbounds
  obtain rfl := Except.ok.inj h
  have htotal : (decoded.getD 1 0).toNat &&& 0x0F ≤ 15 := Nat.and_le_right
  exact ⟨rfl, rfl, ⟨_, (base36_eq_ok hid).2⟩, hbounds, Nat.succ_le_succ htotal⟩

/-- A parsed fragment has an index within its count, and the count is within the profile. -/
theorem parseFragment_bounds {body : Str} {fragment : APRSFragment}
    (h : parseFragment body = .ok fragment) :
    fragment.index < fragment.total ∧ fragment.total ≤ maxFragments := by
  rcases parseFragment_cases h with ⟨-, h⟩ | ⟨-, -, -, -, -, h⟩
  · exact (parseQ2_eq_ok h).2.2.2
  · exact h

theorem parseFragment_take {body : Str} {fragment : APRSFragment}
    (h : parseFragment body = .ok fragment) :
    body.take 2 = str "Q2" ∨ body.take 3 = str "Q1:" :=
  (parseFragment_cases h).imp And.left And.left

end Parse

end OpenQSP
