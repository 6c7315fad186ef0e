import Mathlib.Algebra.Order.Group.Nat
import Mathlib.Data.List.Basic
import Mathlib.Data.UInt
import Mathlib.Tactic.Ring

/-!
# Text and bytes

The server's strings are sequences of code points, which may include lone surrogates: a string
is not always encodable. `PyChar` is one code point and `Str` a string; `Bytes` is a byte string.
Only what the modelled code does with text is here: UTF-8 and ASCII conversion, the character
classes of its regular expressions and callsign rules, and big-endian integers.

## Main definitions

* `PyChar`, `Str`, `Bytes`, `str` (a string literal)
* `encodeUtf8`, `decodeUtf8`, `decodeAscii`
* `PyChar.IsDigit`, `IsUpper`, `IsBase36`
* `toBigEndian`, `fromBigEndian`

## Main results

* `decodeUtf8_of_encodeUtf8`, `encodeUtf8_of_decodeUtf8` — UTF-8 is a bijection onto the texts
  without surrogates
* `fromBigEndian_toBigEndian`
-/

namespace OpenQSP

/-- A code point of a string: a Unicode scalar value, or one of the 2048 surrogates. -/
inductive PyChar
  | scalar (c : Char)
  | surrogate (unit : Fin 2048)
  deriving DecidableEq

/-- A string. -/
abbrev Str := List PyChar

instance : LawfulBEq Str := inferInstance

instance : LawfulBEq (Str × Str) := inferInstance

/-- A byte string. -/
abbrev Bytes := List UInt8

/-- The string of a literal. -/
def str (s : String) : Str := s.toList.map PyChar.scalar

namespace PyChar

/-- The code point of the character. -/
def code : PyChar → ℕ
  | scalar c => c.toNat
  | surrogate unit => 0xD800 + unit

/-- `[0-9]` -/
def isDigit (c : PyChar) : Bool := 48 ≤ c.code && c.code ≤ 57

/-- `[A-Z]` -/
def isUpper (c : PyChar) : Bool := 65 ≤ c.code && c.code ≤ 90

/-- `[a-z]` -/
def isLower (c : PyChar) : Bool := 97 ≤ c.code && c.code ≤ 122

/-- `[0-9A-Z]` -/
def isBase36 (c : PyChar) : Bool := c.isDigit || c.isUpper

/-- `[A-Za-z0-9_-]` -/
def isBase64 (c : PyChar) : Bool :=
  c.isUpper || c.isLower || c.isDigit || c.code == 95 || c.code == 45

end PyChar

/-! ### Encodings -/

/-- `text.encode("utf-8")`; `none` where a lone surrogate makes it raise. -/
def encodeUtf8 : Str → Option Bytes
  | [] => some []
  | .scalar c :: rest => (encodeUtf8 rest).map (String.utf8EncodeChar c ++ ·)
  | .surrogate _ :: _ => none

/-- `data.decode("utf-8")`; `none` where it raises. -/
def decodeUtf8 (data : Bytes) : Option Str :=
  data.toByteArray.utf8Decode?.map fun chars => chars.toList.map PyChar.scalar

/-- The characters of an ASCII byte string. -/
def ofAscii (data : Bytes) : Str := data.map fun b => .scalar (Char.ofNat b.toNat)

/-- `data.decode("ascii")`; `none` where a byte above 127 makes it raise. -/
def decodeAscii (data : Bytes) : Option Str :=
  if data.all (· < 128) then some (ofAscii data) else none

theorem encodeUtf8_scalars (cs : List Char) :
    encodeUtf8 (cs.map PyChar.scalar) = some (cs.flatMap String.utf8EncodeChar) := by
  induction cs with
  | nil => rfl
  | cons c cs ih => simp [encodeUtf8, ih]

theorem scalars_of_encodeUtf8 {s : Str} {data : Bytes} (h : encodeUtf8 s = some data) :
    ∃ cs : List Char, s = cs.map PyChar.scalar := by
  induction s generalizing data with
  | nil => exact ⟨[], rfl⟩
  | cons c s ih =>
    cases c with
    | scalar c =>
      obtain ⟨d, hd, -⟩ := Option.map_eq_some_iff.mp h
      obtain ⟨cs, rfl⟩ := ih hd
      exact ⟨c :: cs, rfl⟩
    | surrogate _ => cases h

theorem decodeUtf8_flatMap (cs : List Char) :
    decodeUtf8 (cs.flatMap String.utf8EncodeChar) = some (cs.map PyChar.scalar) := by
  have h : (cs.flatMap String.utf8EncodeChar).toByteArray.utf8Decode? = some cs.toArray :=
    List.utf8Decode?_utf8Encode
  simp [decodeUtf8, h]

theorem decodeUtf8_of_encodeUtf8 {s : Str} {data : Bytes} (h : encodeUtf8 s = some data) :
    decodeUtf8 data = some s := by
  obtain ⟨cs, rfl⟩ := scalars_of_encodeUtf8 h
  rw [encodeUtf8_scalars, Option.some.injEq] at h
  rw [← h, decodeUtf8_flatMap]

theorem encodeUtf8_of_decodeUtf8 {s : Str} {data : Bytes} (h : decodeUtf8 data = some s) :
    encodeUtf8 s = some data := by
  obtain ⟨chars, hchars, rfl⟩ := Option.map_eq_some_iff.mp h
  have hsome : data.toByteArray.utf8Decode?.isSome := by rw [hchars]; rfl
  have hencode : chars.toList.utf8Encode = data.toByteArray := by
    have := ByteArray.utf8Encode_get_utf8Decode? (b := data.toByteArray) (h := hsome)
    simpa [hchars] using this
  rw [encodeUtf8_scalars, Option.some.injEq]
  exact List.toByteArray_inj.mp hencode

/-- Encoding is injective: the bytes determine the text. -/
theorem encodeUtf8_inj {s s' : Str} {data : Bytes} (h : encodeUtf8 s = some data)
    (h' : encodeUtf8 s' = some data) : s = s' := by
  have := (decodeUtf8_of_encodeUtf8 h).symm.trans (decodeUtf8_of_encodeUtf8 h')
  exact Option.some.inj this

/-! ### ASCII -/

theorem encodeUtf8_ofAscii {data : Bytes} (h : ∀ b ∈ data, b < 128) :
    encodeUtf8 (ofAscii data) = some data := by
  induction data with
  | nil => rfl
  | cons b data ih =>
    have hb : b.toNat < 128 := h b List.mem_cons_self
    have hchar : (Char.ofNat b.toNat).toNat = b.toNat := by
      rw [Char.ofNat, dif_pos (Or.inl (by omega))]
      rfl
    have hbyte : String.utf8EncodeChar (Char.ofNat b.toNat) = [b] := by
      have hval : (Char.ofNat b.toNat).val.toNat = b.toNat := hchar
      rw [String.utf8EncodeChar, hval, if_pos (by omega)]
      simp
    have htail := ih fun c hc => h c (List.mem_cons_of_mem _ hc)
    simp only [ofAscii] at htail
    simp [ofAscii, encodeUtf8, htail, hbyte]

theorem decodeAscii_eq_some {data : Bytes} {s : Str} (h : decodeAscii data = some s) :
    encodeUtf8 s = some data := by
  rw [decodeAscii] at h
  split at h
  · rename_i hall
    obtain rfl := Option.some.inj h
    exact encodeUtf8_ofAscii fun b hb => by simpa using List.all_eq_true.mp hall b hb
  · cases h

/-- Text whose UTF-8 bytes are all ASCII is what `decode("ascii")` gives back. -/
theorem decodeAscii_of_encodeUtf8 {s : Str} {data : Bytes} (h : encodeUtf8 s = some data)
    (hall : ∀ b ∈ data, b < 128) : decodeAscii data = some s := by
  have hif : data.all (· < 128) = true := List.all_eq_true.mpr fun b hb => by simpa using hall b hb
  rw [decodeAscii, if_pos hif, encodeUtf8_inj (encodeUtf8_ofAscii hall) h]

/-! ### Big-endian integers -/

/-- `n.to_bytes(width, "big")`, for `n < 256 ^ width`. -/
def toBigEndian : ℕ → ℕ → Bytes
  | 0, _ => []
  | width + 1, n => toBigEndian width (n / 256) ++ [UInt8.ofNat n]

/-- `int.from_bytes(data, "big")` -/
def fromBigEndian (data : Bytes) : ℕ := data.foldl (fun value byte => value * 256 + byte.toNat) 0

@[simp] theorem length_toBigEndian (width n : ℕ) : (toBigEndian width n).length = width := by
  induction width generalizing n with
  | zero => rfl
  | succ width ih => simp [toBigEndian, ih]

theorem fromBigEndian_append_singleton (data : Bytes) (b : UInt8) :
    fromBigEndian (data ++ [b]) = fromBigEndian data * 256 + b.toNat := by
  simp [fromBigEndian]

theorem fromBigEndian_toBigEndian {w n : ℕ} (h : n < 256 ^ w) :
    fromBigEndian (toBigEndian w n) = n := by
  induction w generalizing n with
  | zero => simp at h; simp [toBigEndian, fromBigEndian, h]
  | succ w ih =>
    have hdiv : n / 256 < 256 ^ w := by
      rw [Nat.div_lt_iff_lt_mul (by norm_num), ← pow_succ]
      exact h
    rw [toBigEndian, fromBigEndian_append_singleton, ih hdiv]
    have hmod : (UInt8.ofNat n).toNat = n % 256 := rfl
    rw [hmod]
    omega

theorem fromBigEndian_lt (data : Bytes) : fromBigEndian data < 256 ^ data.length := by
  induction data using List.reverseRecOn with
  | nil => simp [fromBigEndian]
  | append_singleton data b ih =>
    have hb : b.toNat < 256 := b.toNat_lt
    rw [fromBigEndian_append_singleton, List.length_append, List.length_singleton, pow_succ]
    omega

theorem toBigEndian_fromBigEndian (data : Bytes) :
    toBigEndian data.length (fromBigEndian data) = data := by
  induction data using List.reverseRecOn with
  | nil => rfl
  | append_singleton data b ih =>
    have hb : b.toNat < 256 := b.toNat_lt
    have hdiv : (fromBigEndian data * 256 + b.toNat) / 256 = fromBigEndian data := by omega
    have hlast : UInt8.ofNat (fromBigEndian data * 256 + b.toNat) = b := by
      apply UInt8.toNat_inj.mp
      change (fromBigEndian data * 256 + b.toNat) % 256 = b.toNat
      omega
    rw [List.length_append, List.length_singleton, toBigEndian, fromBigEndian_append_singleton,
      hdiv, ih, hlast]

end OpenQSP
