import OpenQSP.Aprs.Carriage
import OpenQSP.Lib.LittleEndian

/-!
# The text encodings of the carriage

Each of the three encodings is read back. Base 36 and Base64url work digit by digit. In basE91 the
encoder and the decoder cut the same stream of bits at different places, in pairs of characters that
hold thirteen or fourteen bits and in bytes: what the decoder still holds, and above it what the
encoder still holds, are always whole bytes that have not been returned.

## Main definitions

* `base91Width` — the number of bits in a pair of characters

## Main results

* `parseBase36_base36Digits`, `base36Digits_of_parseBase36`
* `base64Decode_base64Encode`
* `base91Decode_base91Encode`
* `length_base91Encode_le` — eight bits in thirteen become two characters
-/

namespace OpenQSP

open Py

/-! ### Base 36 -/

theorem isBase36_base36Digit {digit : ℕ} (h : digit < 36) : (base36Digit digit).isBase36 := by
  have hall : ∀ d : Fin 36, (base36Digit d).isBase36 := by decide
  exact hall ⟨digit, h⟩

theorem base36Value_base36Digit {digit : ℕ} (h : digit < 36) : base36Value (base36Digit digit) =
    digit := by
  have hall : ∀ d : Fin 36, base36Value (base36Digit d) = d := by decide
  exact hall ⟨digit, h⟩

/-- A character is its code point, below the surrogates. -/
theorem scalar_ofNat_code {c : PyChar} (h : c.code < 0xD800) : .scalar (Char.ofNat c.code) = c := by
  cases c with
  | scalar c => exact congrArg PyChar.scalar (Char.ofNat_toNat c)
  | surrogate unit => exact absurd h (Nat.not_lt.mpr (Nat.le_add_right _ _))

theorem isBase36_iff {c : PyChar} :
    c.isBase36 ↔ 48 ≤ c.code ∧ c.code ≤ 57 ∨ 65 ≤ c.code ∧ c.code ≤ 90 := by
  rw [PyChar.isBase36, PyChar.isDigit, PyChar.isUpper, Bool.or_eq_true, Bool.and_eq_true,
    Bool.and_eq_true, decide_eq_true_iff, decide_eq_true_iff, decide_eq_true_iff,
      decide_eq_true_iff]

theorem base36Value_of_digit {c : PyChar} (h : 48 ≤ c.code ∧ c.code ≤ 57) :
    base36Value c = c.code - 48 := by
  rw [base36Value, if_pos]
  rw [PyChar.isDigit, decide_eq_true h.1, decide_eq_true h.2]
  rfl

theorem base36Value_of_upper {c : PyChar} (h : 65 ≤ c.code ∧ c.code ≤ 90) :
    base36Value c = c.code - 55 := by
  rw [base36Value, if_neg]
  rw [PyChar.isDigit, decide_eq_false (p := c.code ≤ 57) (by omega), Bool.and_false]
  exact Bool.false_ne_true

theorem base36Value_lt {c : PyChar} (h : c.isBase36) : base36Value c < 36 := by
  rcases isBase36_iff.mp h with hdigit | hupper
  · rw [base36Value_of_digit hdigit]
    omega
  · rw [base36Value_of_upper hupper]
    omega

theorem base36Digit_base36Value {c : PyChar} (h : c.isBase36) :
    base36Digit (base36Value c) = c := by
  rcases isBase36_iff.mp h with hdigit | hupper
  · have hcode : 48 + (c.code - 48) = c.code := by omega
    rw [base36Digit, base36Value_of_digit hdigit, if_pos (by omega), hcode,
      scalar_ofNat_code (by omega)]
  · have hcode : 55 + (c.code - 55) = c.code := by omega
    rw [base36Digit, base36Value_of_upper hupper, if_neg (by omega), hcode,
      scalar_ofNat_code (by omega)]

theorem all_isBase36_base36Digits (width value : ℕ) :
    (base36Digits width value).all PyChar.isBase36 := by
  induction width generalizing value with
  | zero => rfl
  | succ width ih =>
    rw [base36Digits, List.all_append, ih, List.all_cons,
      isBase36_base36Digit (Nat.mod_lt _ (by decide))]
    rfl

theorem foldl_base36Digits {width value : ℕ} (h : value < 36 ^ width) :
    (base36Digits width value).foldl (fun value c => value * 36 + base36Value c) 0 = value := by
  induction width generalizing value with
  | zero =>
    rw [pow_zero, Nat.lt_one_iff] at h
    exact h.symm
  | succ width ih =>
    have hdiv : value / 36 < 36 ^ width := by
      rw [Nat.div_lt_iff_lt_mul (by decide), ← pow_succ]
      exact h
    rw [base36Digits, List.foldl_append, ih hdiv, List.foldl_cons, List.foldl_nil,
      base36Value_base36Digit (Nat.mod_lt _ (by decide))]
    omega

theorem parseBase36_base36Digits {width value : ℕ} (h : value < 36 ^ width) :
    parseBase36 (base36Digits width value) width = .ok value := by
  rw [parseBase36, raiseIf, if_neg]
  · exact congrArg Except.ok (foldl_base36Digits h)
  · rw [not_or, not_not, not_not]
    exact ⟨length_base36Digits width value, all_isBase36_base36Digits width value⟩

theorem base36_ok {width value : ℕ} (h : value < 36 ^ width) :
    base36 value width = .ok (base36Digits width value) := by
  rw [base36, raiseIf, if_neg (not_not.mpr h)]
  rfl

/-- A number is read from its digits only. -/
theorem base36Digits_foldl (text : Str) (h : text.all PyChar.isBase36) :
    base36Digits text.length (text.foldl (fun value c => value * 36 + base36Value c) 0) = text := by
  induction text using List.reverseRecOn with
  | nil => rfl
  | append_singleton text c ih =>
    rw [List.all_append, Bool.and_eq_true, List.all_cons, Bool.and_eq_true] at h
    have hlt := base36Value_lt h.2.1
    have hdiv : ∀ n, (n * 36 + base36Value c) / 36 = n := by
      intro n
      omega
    have hmod : ∀ n, (n * 36 + base36Value c) % 36 = base36Value c := by
      intro n
      omega
    rw [List.length_append, List.length_singleton, List.foldl_append, List.foldl_cons,
      List.foldl_nil,
      base36Digits, hdiv, hmod, ih h.1, base36Digit_base36Value h.2.1]

theorem base36Digits_of_parseBase36 {text : Str} {width value : ℕ}
    (h : parseBase36 text width = .ok value) : base36Digits width value = text := by
  obtain ⟨rfl, hall, rfl⟩ := parseBase36_eq_ok h
  exact base36Digits_foldl text hall

/-! ### Base64url -/

theorem isBase64_base64Digit {value : ℕ} (h : value < 64) : (base64Digit value).isBase64 := by
  have hall : ∀ v : Fin 64, (base64Digit v).isBase64 := by decide
  exact hall ⟨value, h⟩

theorem base64Value_base64Digit {value : ℕ} (h : value < 64) : base64Value (base64Digit value) =
    value := by
  have hall : ∀ v : Fin 64, base64Value (base64Digit v) = v := by decide
  exact hall ⟨value, h⟩

theorem ofNat_eq_of_mod {n : ℕ} (byte : UInt8) (h : n % 256 = byte.toNat) : UInt8.ofNat n = byte :=
  UInt8.toNat_inj.mp h

theorem base64Decode_base64Encode (data : Bytes) : base64Decode (base64Encode data) = data := by
  induction data using base64Encode.induct with
  | case1 a b c data ih =>
    have ha := a.toNat_lt
    have hb := b.toNat_lt
    have hc := c.toNat_lt
    have hn : a.toNat * 65536 + b.toNat * 256 + c.toNat < 16777216 := by omega
    rw [base64Encode, List.cons_append, List.cons_append, List.cons_append, List.cons_append,
      List.nil_append, base64Decode, ih, base64Value_base64Digit (by omega),
      base64Value_base64Digit (by omega), base64Value_base64Digit (by omega),
      base64Value_base64Digit (by omega)]
    rw [ofNat_eq_of_mod a (by omega), ofNat_eq_of_mod b (by omega),
      ofNat_eq_of_mod c (by omega)]
    rfl
  | case2 a b =>
    have ha := a.toNat_lt
    have hb := b.toNat_lt
    rw [base64Encode, base64Decode, base64Value_base64Digit (by omega),
      base64Value_base64Digit (by omega), base64Value_base64Digit (by omega),
      ofNat_eq_of_mod a (by omega), ofNat_eq_of_mod b (by omega)]
  | case3 a =>
    have ha := a.toNat_lt
    rw [base64Encode, base64Decode, base64Value_base64Digit (by omega),
      base64Value_base64Digit (by omega), ofNat_eq_of_mod a (by omega)]
  | case4 => rfl

theorem all_isBase64_base64Encode (data : Bytes) : (base64Encode data).all PyChar.isBase64 := by
  induction data using base64Encode.induct with
  | case1 a b c data ih =>
    have ha := a.toNat_lt
    have hb := b.toNat_lt
    have hc := c.toNat_lt
    rw [base64Encode, List.all_append, ih, List.all_cons, List.all_cons, List.all_cons,
      List.all_cons,
      isBase64_base64Digit (by omega), isBase64_base64Digit (by omega),
      isBase64_base64Digit (by omega), isBase64_base64Digit (by omega)]
    rfl
  | case2 a b =>
    have ha := a.toNat_lt
    have hb := b.toNat_lt
    rw [base64Encode, List.all_cons, List.all_cons, List.all_cons, isBase64_base64Digit (by omega),
      isBase64_base64Digit (by omega), isBase64_base64Digit (by omega)]
    rfl
  | case3 a =>
    have ha := a.toNat_lt
    rw [base64Encode, List.all_cons, List.all_cons, isBase64_base64Digit (by omega),
      isBase64_base64Digit (by omega)]
    rfl
  | case4 => rfl

theorem length_base64Encode (data : Bytes) : (base64Encode data).length =
    (4 * data.length + 2) / 3 := by
  induction data using base64Encode.induct with
  | case1 a b c data ih =>
    rw [base64Encode, List.length_append, ih]
    simp only [List.length_cons, List.length_nil]
    omega
  | case2 a b => simp [base64Encode]
  | case3 a => simp [base64Encode]
  | case4 => rfl

/-! ### basE91 -/

/-- The number of bits that the next pair of characters holds. -/
def base91Width (value : ℕ) : ℕ := if 88 < value % 8192 then 13 else 14

theorem base91Width_cases (value : ℕ) : base91Width value = 13 ∧ 88 < value % 8192 ∨
    base91Width value = 14 ∧ value % 8192 ≤ 88 := by
  rw [base91Width]
  split
  · next h => exact .inl ⟨rfl, h⟩
  · next h => exact .inr ⟨rfl, Nat.le_of_not_lt h⟩

/-- A pair of characters can hold the lowest bits, and tells how many they are. -/
theorem mod_base91Width (value : ℕ) : value % 2 ^ base91Width value < 91 * 91 ∧
    base91Width (value % 2 ^ base91Width value) = base91Width value := by
  rcases base91Width_cases value with ⟨hwidth, h⟩ | ⟨hwidth, h⟩
  · rw [hwidth]
    refine ⟨by omega, ?_⟩
    rw [base91Width, if_pos (by omega)]
  · rw [hwidth]
    refine ⟨by omega, ?_⟩
    rw [base91Width, if_neg (by omega)]

theorem base91EncodeLoop_cons {byte : UInt8} {data : Bytes} {value bits joined : ℕ}
    (h : value < 2 ^ bits) (hjoined : joined = value + 2 ^ bits * byte.toNat) :
    base91EncodeLoop (byte :: data) value bits =
      if 13 < bits + 8 then base91Pair (joined % 2 ^ base91Width joined) ++
        base91EncodeLoop data (joined / 2 ^ base91Width joined) (bits + 8 - base91Width joined)
      else base91EncodeLoop data joined (bits + 8) := by
  have h13 : joined &&& 8191 = joined % 8192 := Nat.and_two_pow_sub_one_eq_mod joined 13
  have h14 : joined &&& 16383 = joined % 16384 := Nat.and_two_pow_sub_one_eq_mod joined 14
  rw [base91EncodeLoop, or_shiftLeft h, ← hjoined, h13, h14, Nat.shiftRight_eq_div_pow,
    Nat.shiftRight_eq_div_pow]
  dsimp only
  split
  · rcases base91Width_cases joined with ⟨hwidth, h⟩ | ⟨hwidth, h⟩
    · rw [if_pos h, hwidth]
      rfl
    · rw [if_neg (Nat.not_lt.mpr h), hwidth]
      rfl
  · rfl

theorem base91Drain_eq {fuel accumulator bits : ℕ} (h : bits ≤ fuel) :
    base91Drain fuel accumulator bits = (toLittleEndian (bits / 8) accumulator,
      accumulator / 2 ^ (8 * (bits / 8)), bits % 8) := by
  induction fuel generalizing accumulator bits with
  | zero =>
    obtain rfl := Nat.le_zero.mp h
    rw [base91Drain, Nat.zero_div, Nat.mul_zero, pow_zero, Nat.div_one]
    rfl
  | succ fuel ih =>
    rw [base91Drain]
    split
    · next hbits =>
      obtain ⟨rest, rfl⟩ := Nat.exists_eq_add_of_le hbits
      have hdiv : (8 + rest) / 8 = rest / 8 + 1 := by omega
      have hmod : (8 + rest) % 8 = rest % 8 := by omega
      rw [Nat.add_sub_cancel_left, ih (by omega), hdiv, hmod, toLittleEndian,
        two_pow_eight_mul_succ,
        ← Nat.div_div_eq_div_mul, Nat.shiftRight_eq_div_pow]
    · next hbits =>
      have hdiv : bits / 8 = 0 := by omega
      rw [hdiv, Nat.mul_zero, pow_zero, Nat.div_one, Nat.mod_eq_of_lt (Nat.lt_of_not_le hbits)]
      rfl

theorem idxOf?_base91Alphabet {value : ℕ} (h : value < 91) :
    base91Alphabet.idxOf? (base91Alphabet.getD value base91Pair.default) = some value := by
  have hall : ∀ v : Fin 91, base91Alphabet.idxOf? (base91Alphabet.getD v base91Pair.default) =
    some v.1 := by
    decide +kernel
  exact hall ⟨value, h⟩

theorem base91DecodeLoop_pair {encoded accumulator bits joined total : ℕ} {text : Str}
    (h : encoded < 91 * 91) (haccumulator : accumulator < 2 ^ bits)
    (hjoined : joined = accumulator + 2 ^ bits * encoded)
    (htotal : total = bits + base91Width encoded) :
    base91DecodeLoop (base91Pair encoded ++ text) none accumulator bits = (do
      let rest ← base91DecodeLoop text none (joined / 2 ^ (8 * (total / 8))) (total % 8)
      return toLittleEndian (total / 8) joined ++ rest) := by
  have hdigits : encoded % 91 + encoded / 91 * 91 = encoded := by omega
  have h13 : encoded &&& 8191 = encoded % 8192 := Nat.and_two_pow_sub_one_eq_mod encoded 13
  rw [base91Pair, List.cons_append, List.cons_append, List.nil_append, base91DecodeLoop,
    idxOf?_base91Alphabet (Nat.mod_lt _ (by decide))]
  dsimp only
  rw [base91DecodeLoop, idxOf?_base91Alphabet (Nat.div_lt_of_lt_mul h)]
  dsimp only
  rw [hdigits, h13, or_shiftLeft haccumulator, ← base91Width, ← hjoined, ← htotal,
    base91Drain_eq le_rfl]

/-- The last character, when it stands alone, holds seven bits. -/
theorem base91DecodeLoop_single {value accumulator bits : ℕ} (h : value < 91)
    (haccumulator : accumulator < 2 ^ bits) :
    base91DecodeLoop [base91Alphabet.getD value base91Pair.default] none accumulator bits =
      .ok (toLittleEndian ((bits + 7) / 8) (accumulator + 2 ^ bits * value)) := by
  rw [base91DecodeLoop, idxOf?_base91Alphabet h]
  dsimp only
  rw [base91DecodeLoop, or_shiftLeft haccumulator, base91Drain_eq le_rfl]

/-- What the decoder still holds and, above it, what the encoder still holds are whole bytes. -/
theorem base91DecodeLoop_encodeLoop {data : Bytes} {value bits accumulator held width : ℕ}
    (hvalue : value < 2 ^ bits) (hbits : bits ≤ 13) (haccumulator : accumulator < 2 ^ held)
    (hheld : held < 8) (hwidth : held + bits = 8 * width) :
    base91DecodeLoop (base91EncodeLoop data value bits) none accumulator held =
      .ok (toLittleEndian width (accumulator + 2 ^ held * value) ++ data) := by
  induction data generalizing value bits accumulator held width with
  | nil =>
    rw [base91EncodeLoop, List.append_nil]
    split
    · next hzero =>
      subst hzero
      obtain rfl : width = 0 := by omega
      rw [base91DecodeLoop]
      rfl
    · next hpos =>
      have hvalue' : value < 2 ^ 13 := lt_of_lt_of_le hvalue
        (Nat.pow_le_pow_right (by decide) hbits)
      split
      · next hpair =>
        -- The pair claims more bits than the encoder holds, but not another byte.
        have hbytes : (held + base91Width value) / 8 = width := by
          rcases base91Width_cases value with ⟨hw, -⟩ | ⟨hw, hle⟩
          · rw [hw]
            have h7 : 7 ≤ bits := by
              rcases hpair with hlt | hlt
              · omega
              · by_contra hbits'
                have : value < 2 ^ 6 :=
                  lt_of_lt_of_le hvalue (Nat.pow_le_pow_right (by decide) (by omega))
                omega
            omega
          · rw [hw]
            have h8 : 7 < bits := by
              rcases hpair with hlt | hlt
              · exact hlt
              · omega
            omega
        rw [← List.append_nil (base91Pair value),
          base91DecodeLoop_pair (by omega) haccumulator rfl rfl, base91DecodeLoop, hbytes]
        exact congrArg Except.ok (List.append_nil _)
      · next hsingle =>
        rw [not_or, Nat.not_lt, Nat.not_lt] at hsingle
        have hbytes : (held + 7) / 8 = width := by omega
        have hmod : value % 91 = value := Nat.mod_eq_of_lt (by omega)
        rw [base91Pair, List.take_succ_cons, List.take_zero, hmod,
          base91DecodeLoop_single (by omega) haccumulator, hbytes]
  | cons byte data ih =>
    obtain ⟨joined, hjoined⟩ : ∃ joined, joined = value + 2 ^ bits * byte.toNat := ⟨_, rfl⟩
    have hbyte := byte.toNat_lt
    have hjoined_lt : joined < 2 ^ (bits + 8) := by
      rw [hjoined, pow_add]
      have : 2 ^ bits * byte.toNat ≤ 2 ^ bits * 255 := Nat.mul_le_mul_left _ (by omega)
      omega
    have hlow : accumulator + 2 ^ held * value < 2 ^ (8 * width) := by
      rw [← hwidth, pow_add]
      have : 2 ^ held * (value + 1) ≤ 2 ^ held * 2 ^ bits := Nat.mul_le_mul_left _ hvalue
      rw [Nat.mul_add] at this
      omega
    have hwhole : toLittleEndian (width + 1) (accumulator + 2 ^ held * joined) =
        toLittleEndian width (accumulator + 2 ^ held * value) ++ [byte] := by
      rw [← toLittleEndian_succ_byte hlow byte, ← hwidth, hjoined, pow_add, Nat.mul_add,
        ← Nat.mul_assoc,
        Nat.add_assoc]
    have hsplit : toLittleEndian width (accumulator + 2 ^ held * value) ++ byte :: data =
        toLittleEndian (width + 1) (accumulator + 2 ^ held * joined) ++ data := by
      rw [hwhole, List.append_assoc, List.singleton_append]
    rw [base91EncodeLoop_cons hvalue hjoined, hsplit]
    split
    · next hlong =>
      obtain ⟨hencoded, hencodedWidth⟩ := mod_base91Width joined
      obtain ⟨k, hk⟩ : ∃ k, base91Width joined = k := ⟨_, rfl⟩
      rw [hk] at hencoded hencodedWidth ⊢
      have hk' : k = 13 ∨ k = 14 := hk ▸ (base91Width_cases joined).imp And.left And.left
      obtain ⟨held', rest, hheld', htotal⟩ : ∃ held' rest, held' < 8 ∧
        held + k = 8 * rest + held' :=
        ⟨(held + k) % 8, (held + k) / 8, Nat.mod_lt _ (by decide), (Nat.div_add_mod _ _).symm⟩
      obtain ⟨low, hlowdef⟩ : ∃ low, low = accumulator + 2 ^ held * (joined % 2 ^ k) := ⟨_, rfl⟩
      have hdiv : (held + k) / 8 = rest := by omega
      have hmod : (held + k) % 8 = held' := by omega
      have hlow_lt : low < 2 ^ (held + k) := by
        have : 2 ^ held * (joined % 2 ^ k + 1) ≤ 2 ^ held * 2 ^ k :=
          Nat.mul_le_mul_left _ (Nat.mod_lt _ (Nat.two_pow_pos k))
        rw [Nat.mul_add] at this
        rw [hlowdef, pow_add]
        omega
      have hjoin : accumulator + 2 ^ held * joined =
        low + 2 ^ (8 * rest) * (2 ^ held' * (joined / 2 ^ k)) := by
        rw [← Nat.mul_assoc, ← pow_add, ← htotal, pow_add, hlowdef, Nat.add_assoc, Nat.mul_assoc,
          ← Nat.mul_add, Nat.mod_add_div]
      obtain ⟨more, hmore⟩ : ∃ more, width + 1 = rest + more := ⟨width + 1 - rest, by omega⟩
      have hrest : base91DecodeLoop (base91EncodeLoop data (joined / 2 ^ k) (bits + 8 - k)) none
          (low / 2 ^ (8 * rest)) held' =
          .ok (toLittleEndian more (low / 2 ^ (8 * rest) + 2 ^ held' * (joined / 2 ^ k)) ++
            data) := by
        refine ih (Nat.div_lt_of_lt_mul ?_) (by omega) (Nat.div_lt_of_lt_mul ?_) hheld' (by omega)
        · rw [← pow_add, Nat.add_sub_cancel' (by omega)]
          exact hjoined_lt
        · rw [← pow_add, ← htotal]
          exact hlow_lt
      rw [base91DecodeLoop_pair hencoded haccumulator hlowdef (by rw [hencodedWidth]), hdiv, hmod,
        hrest,
        hmore, toLittleEndian_add, hjoin, toLittleEndian_add_mul,
        Nat.add_mul_div_left _ _ (Nat.two_pow_pos _), List.append_assoc]
      rfl
    · next hshort =>
      exact ih hjoined_lt (by omega) haccumulator hheld (by omega)

theorem base91DecodeLoop_base91Encode (data : Bytes) :
    base91DecodeLoop (base91Encode data) none 0 0 = .ok data := by
  have h : base91DecodeLoop (base91EncodeLoop data 0 0) none 0 0 =
      .ok (toLittleEndian 0 (0 + 2 ^ 0 * 0) ++ data) :=
    base91DecodeLoop_encodeLoop Nat.one_pos (by decide) Nat.one_pos (by decide) rfl
  exact h

theorem base91Encode_ne_nil {data : Bytes} (h : data ≠ []) : base91Encode data ≠ [] := by
  intro hnil
  have hdecode := base91DecodeLoop_base91Encode data
  rw [hnil, base91DecodeLoop] at hdecode
  exact h (Except.ok.inj hdecode).symm

theorem base91Decode_base91Encode {data : Bytes} (h : data ≠ []) :
    base91Decode (base91Encode data) = .ok data := by
  rw [base91Decode, raiseIf, if_neg (base91Encode_ne_nil h)]
  exact base91DecodeLoop_base91Encode data

theorem length_base91EncodeLoop_le {data : Bytes} {value bits : ℕ} (hvalue : value < 2 ^ bits)
    (hbits : bits ≤ 13) :
    (base91EncodeLoop data value bits).length ≤ 2 * ((bits + 8 * data.length + 12) / 13) := by
  induction data generalizing value bits with
  | nil =>
    rw [base91EncodeLoop]
    split
    · exact Nat.zero_le _
    · have hpair : (base91Pair value).length = 2 := rfl
      split
      · rw [hpair, List.length_nil]
        omega
      · rw [List.length_take, hpair, List.length_nil]
        omega
  | cons byte data ih =>
    obtain ⟨joined, hjoined⟩ : ∃ joined, joined = value + 2 ^ bits * byte.toNat := ⟨_, rfl⟩
    have hlt : joined < 2 ^ (bits + 8) := by
      have hbyte := byte.toNat_lt
      have : 2 ^ bits * byte.toNat ≤ 2 ^ bits * 255 := Nat.mul_le_mul_left _ (by omega)
      rw [hjoined, pow_add]
      omega
    rw [base91EncodeLoop_cons hvalue hjoined, List.length_cons]
    split
    · have hk := (base91Width_cases joined).imp And.left And.left
      have hpair : (base91Pair (joined % 2 ^ base91Width joined)).length = 2 := rfl
      have hrest : joined / 2 ^ base91Width joined < 2 ^ (bits + 8 - base91Width joined) := by
        refine Nat.div_lt_of_lt_mul ?_
        rw [← pow_add, Nat.add_sub_cancel' (by omega)]
        exact hlt
      have hle := ih hrest (by omega)
      rw [List.length_append, hpair]
      omega
    · have hle := ih hlt (by omega)
      omega

theorem length_base91Encode_le (data : Bytes) :
    (base91Encode data).length ≤ 2 * ((8 * data.length + 12) / 13) := by
  have hle : (base91EncodeLoop data 0 0).length ≤ 2 * ((0 + 8 * data.length + 12) / 13) :=
    length_base91EncodeLoop_le Nat.one_pos (Nat.zero_le 13)
  rwa [Nat.zero_add] at hle

theorem getD_mem_base91Alphabet (i : ℕ) :
    base91Alphabet.getD i base91Pair.default ∈ base91Alphabet := by
  rw [List.getD_eq_getElem?_getD]
  cases hget : base91Alphabet[i]? with
  | none => decide +kernel
  | some c => exact List.mem_of_getElem? hget

theorem mem_base91Alphabet_of_mem_base91EncodeLoop (data : Bytes) (value bits : ℕ) :
    ∀ c ∈ base91EncodeLoop data value bits, c ∈ base91Alphabet := by
  have hpair : ∀ encoded, ∀ c ∈ base91Pair encoded, c ∈ base91Alphabet := by
    intro encoded c hc
    rcases List.mem_pair.mp hc with rfl | rfl
    · exact getD_mem_base91Alphabet _
    · exact getD_mem_base91Alphabet _
  induction data generalizing value bits with
  | nil =>
    rw [base91EncodeLoop]
    split
    · exact fun c hc => absurd hc List.not_mem_nil
    · split
      · exact hpair value
      · exact fun c hc => hpair value c (List.mem_of_mem_take hc)
  | cons byte data ih =>
    rw [base91EncodeLoop]
    dsimp only
    split
    · split
      · exact fun c hc => (List.mem_append.mp hc).elim (hpair _ c) (ih _ _ c)
      · exact fun c hc => (List.mem_append.mp hc).elim (hpair _ c) (ih _ _ c)
    · exact ih _ _

/-- basE91 text has only characters of the alphabet. -/
theorem mem_base91Alphabet_of_mem_base91Encode {data : Bytes} :
    ∀ c ∈ base91Encode data, c ∈ base91Alphabet :=
  mem_base91Alphabet_of_mem_base91EncodeLoop data 0 0

/-- The alphabet leaves out the brace that opens a message id. -/
theorem openBrace_notMem_base91EncodeLoop (data : Bytes) (value bits : ℕ) :
    openBrace ∉ base91EncodeLoop data value bits := by
  intro h
  have hmem := mem_base91Alphabet_of_mem_base91EncodeLoop data value bits openBrace h
  exact absurd (List.mem_filter.mp hmem).2 (by decide)

end OpenQSP
