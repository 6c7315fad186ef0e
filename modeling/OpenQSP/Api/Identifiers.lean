import OpenQSP.Api.App

/-!
# Message identifiers

The identifier of a message is Base64url of its recipient and its mailbox sequence. The decoder is
a lenient one: it passes over what is no digit, takes both alphabets, and accepts any spelling of a
number. Whatever `_message_id` has made it reads back as what it was made of.

## Main results

* `unb64_base64Encode`, `splitLastColon_append`, `parseInt_decimalDigits`
* `parseMessageId_messageId` — an identifier leads back to its message
-/

namespace OpenQSP

/-! ### Base64 -/

/-- Digits are collected. -/
theorem a2bBase64_append {ds : Str} (hds : ∀ c ∈ ds, c.isStandardBase64 ∧ c.code ≠ 61)
    (text digits : Str) : a2bBase64 (ds ++ text) digits 0 = a2bBase64 text (digits ++ ds) 0 := by
  induction ds generalizing digits with
  | nil => simp
  | cons c ds ih =>
    obtain ⟨hdigit, hcode⟩ := hds c List.mem_cons_self
    rw [List.cons_append, a2bBase64, if_neg hcode, if_pos hdigit,
      ih fun c hc => hds c (List.mem_cons_of_mem _ hc), List.append_assoc]
    rfl

/-- The padding that completes a group. -/
theorem a2bBase64_padding {digits : Str} (hmod : digits.length % 4 ≠ 1) :
    a2bBase64 (List.replicate ((4 - digits.length % 4) % 4) (.scalar '=')) digits 0 =
      .ok (base64Decode (digits.map urlSafeDigit)) := by
  have hpad : (PyChar.scalar '=').code = 61 := by decide
  have hcases : digits.length % 4 = 0 ∨ digits.length % 4 = 2 ∨ digits.length % 4 = 3 := by omega
  rcases hcases with h | h | h
  · simp [h, a2bBase64, raiseIf]
  · simp [h, a2bBase64, hpad, List.replicate]
  · simp [h, a2bBase64, hpad]

theorem code_lt_of_isBase64 {c : PyChar} (h : c.isBase64) : c.code < 128 := by
  simp only [PyChar.isBase64, PyChar.isUpper, PyChar.isLower, PyChar.isDigit, Bool.or_eq_true,
    Bool.and_eq_true, decide_eq_true_eq, beq_iff_eq] at h
  omega

/-- `_unb64` reads what `_b64` has written. -/
theorem unb64_base64Encode (data : Bytes) : unb64 (base64Encode data) = .ok data := by
  have hbase64 : ∀ c ∈ base64Encode data, c.isBase64 :=
    List.all_eq_true.mp (all_isBase64_base64Encode data)
  have hascii : ¬((base64Encode data).any fun c => 128 ≤ c.code) = true := by
    simp only [List.any_eq_true, decide_eq_true_eq, not_exists, not_and, not_le]
    exact fun c hc => code_lt_of_isBase64 (hbase64 c hc)
  have hdigits : ∀ c ∈ (base64Encode data).map standardDigit,
      c.isStandardBase64 ∧ c.code ≠ 61 := by
    intro c hc
    obtain ⟨digit, hdigit, rfl⟩ := List.mem_map.mp hc
    obtain ⟨hstandard, hcode, -⟩ := standardDigit_spec (hbase64 digit hdigit)
    exact ⟨hstandard, hcode⟩
  have hback : ((base64Encode data).map standardDigit).map urlSafeDigit = base64Encode data := by
    rw [List.map_map]
    exact (List.map_congr_left fun c hc => (standardDigit_spec (hbase64 c hc)).2.2).trans
      (List.map_id _)
  have hlength : (base64Encode data).length = ((base64Encode data).map standardDigit).length :=
    List.length_map _ |>.symm
  have hmod : ((base64Encode data).map standardDigit).length % 4 ≠ 1 := by
    rw [← hlength, length_base64Encode]
    omega
  have hpadding : (List.replicate ((4 - (base64Encode data).length % 4) % 4)
      (PyChar.scalar '=')).map standardDigit =
        List.replicate ((4 - (base64Encode data).length % 4) % 4) (.scalar '=') := by
    rw [List.map_replicate]
    rfl
  rw [unb64, raiseIf_of_not hascii, Py.ok_bind]
  dsimp only
  rw [List.map_append, hpadding, a2bBase64_append hdigits, List.nil_append, hlength,
    a2bBase64_padding hmod, hback, base64Decode_base64Encode]

/-! ### Numbers -/

theorem isDigit_of_mem_decimalDigits {n : ℕ} {c : PyChar} (h : c ∈ decimalDigits n) :
    c.isDigit := by
  obtain ⟨char, hchar, rfl⟩ := List.mem_map.mp h
  have hdigit : char.isDigit :=
    Nat.isDigit_of_mem_toDigits (by decide) (by decide) hchar
  simp only [Char.isDigit, UInt32.le_iff_toNat_le, Bool.and_eq_true, decide_eq_true_eq,
    ge_iff_le] at hdigit
  rw [PyChar.isDigit, Bool.and_eq_true]
  exact ⟨decide_eq_true hdigit.1, decide_eq_true hdigit.2⟩

/-- No digit is blank, a sign or a separator. -/
theorem code_of_isDigit {c : PyChar} (h : c.isDigit) : 48 ≤ c.code ∧ c.code ≤ 57 := by
  simpa [PyChar.isDigit] using h

theorem decimalDigits_ne_nil (n : ℕ) : decimalDigits n ≠ [] := by
  simp [decimalDigits, Nat.toDigits_ne_nil]

theorem dropWhile_eq_self {α : Type} {p : α → Bool} {l : List α} (h : ∀ a ∈ l, p a = false) :
    l.dropWhile p = l := by
  cases l with
  | nil => rfl
  | cons a l => simp [h a List.mem_cons_self]

/-- A text without blanks has nothing to strip. -/
theorem strip_eq_self {text : Str} (h : ∀ c ∈ text, 48 ≤ c.code) : strip text = text := by
  have hblank : ∀ c ∈ text, (c.code = 32 || (9 ≤ c.code && c.code ≤ 13) ||
      (28 ≤ c.code && c.code ≤ 31) : Bool) = false := by
    intro c hc
    have hle := h c hc
    simp only [Bool.or_eq_false_iff, Bool.and_eq_false_iff, decide_eq_false_iff_not]
    omega
  rw [strip, dropWhile_eq_self hblank,
    dropWhile_eq_self fun c hc => hblank c (List.mem_reverse.mp hc), List.reverse_reverse]

/-- The value of a text of digits. -/
theorem foldl_digits (l : List Char) (init : ℕ) :
    (l.map PyChar.scalar).foldl (fun value c => value * 10 + (c.code - 48)) init =
      Nat.ofDigitChars 10 l init := by
  induction l generalizing init with
  | nil => simp
  | cons c l ih =>
    rw [List.map_cons, List.foldl_cons, ih, Nat.ofDigitChars_cons, Nat.mul_comm]
    rfl

/-- A number is read back from its digits. -/
theorem parseInt_decimalDigits (n : ℕ) : parseInt (decimalDigits n) = .ok (n : ℤ) := by
  have hdigits : ∀ c ∈ decimalDigits n, c.isDigit := fun c hc => isDigit_of_mem_decimalDigits hc
  have hcodes : ∀ c ∈ decimalDigits n, 48 ≤ c.code ∧ c.code ≤ 57 :=
    fun c hc => code_of_isDigit (hdigits c hc)
  have hsign : ∀ sign : PyChar, sign.code < 48 → (decimalDigits n).take 1 ≠ [sign] := by
    intro sign hsign htake
    have hmem : sign ∈ decimalDigits n :=
      List.mem_of_mem_take (htake ▸ List.mem_singleton_self sign)
    have hle := (hcodes sign hmem).1
    omega
  have hminus : (decimalDigits n).take 1 ≠ str "-" := hsign (.scalar '-') (by decide)
  have hplus : (decimalDigits n).take 1 ≠ str "+" := hsign (.scalar '+') (by decide)
  have hsplit : (decimalDigits n).splitOn (.scalar '_') = [decimalDigits n] := by
    refine List.splitOn_eq_singleton ?_
    intro hmem
    exact absurd (hcodes _ hmem).2 (by decide)
  have hvalue : (decimalDigits n).foldl (fun value c => value * 10 + (c.code - 48)) 0 = n := by
    rw [decimalDigits, foldl_digits, Nat.ofDigitChars_ten_toDigits]
  have hsigned : ¬((decimalDigits n).take 1 = str "-" ∨ (decimalDigits n).take 1 = str "+") :=
    not_or.mpr ⟨hminus, hplus⟩
  rw [parseInt, strip_eq_self fun c hc => (hcodes c hc).1]
  dsimp only
  rw [if_neg hsigned, hsplit, if_pos, if_neg hminus, List.flatten_singleton, hvalue]
  simp only [List.all_cons, List.all_nil, Bool.and_true, Bool.and_eq_true, decide_eq_true_eq,
    List.all_eq_true]
  exact ⟨decimalDigits_ne_nil n, hdigits⟩

/-! ### Identifiers -/

/-- The last colon. -/
theorem splitLastColon_append (front : Str) {back : Str} (h : ∀ c ∈ back, c.code ≠ 58) :
    splitLastColon (front ++ .scalar ':' :: back) = some (front, back) := by
  have hreverse : (front ++ .scalar ':' :: back).reverse =
      back.reverse ++ .scalar ':' :: front.reverse := by simp
  have hdrop : (front ++ .scalar ':' :: back).reverse.dropWhile (fun c => c.code ≠ 58) =
      .scalar ':' :: front.reverse := by
    rw [hreverse, List.dropWhile_append_of_pos fun c hc =>
      decide_eq_true (h c (List.mem_reverse.mp hc))]
    rfl
  have hfront : ((front ++ .scalar ':' :: back).reverse.dropWhile (fun c => c.code ≠ 58)).reverse =
      front ++ [.scalar ':'] := by
    rw [hdrop]
    simp
  rw [splitLastColon, hfront]
  rcases hnil : front ++ [PyChar.scalar ':'] with _ | ⟨c, rest⟩
  · simp at hnil
  · dsimp only
    rw [← hnil, List.dropLast_concat]
    simp

theorem length_decimalDigits_le {n : ℕ} (h : n ≤ maxU32) : (decimalDigits n).length ≤ 4300 := by
  have hten : (Nat.toDigits 10 n).length ≤ 10 := by
    rw [Nat.length_toDigits_le_iff (by decide) (by decide)]
    exact lt_of_le_of_lt h (by decide)
  rw [decimalDigits, List.length_map]
  omega

/-- **An identifier leads back** to the recipient and the sequence that it was made of. -/
theorem Api.parseMessageId_messageId (integers : IntegerSyntax) {recipient id : Str} {sequence : ℕ}
    (hmax : sequence ≤ maxU32) (h : messageId recipient sequence = .ok id) :
    parseMessageId integers id = .ok (recipient, (sequence : ℤ)) := by
  obtain ⟨data, hdata, hid⟩ := Py.bind_eq_ok.mp h
  obtain rfl := Except.ok.inj hid
  have hcodes : ∀ c ∈ decimalDigits sequence, 48 ≤ c.code ∧ c.code ≤ 57 :=
    fun c hc => code_of_isDigit (isDigit_of_mem_decimalDigits hc)
  have hint : integers.int (decimalDigits sequence) = .ok (sequence : ℤ) := by
    rw [integers.int_ascii _ (length_decimalDigits_le hmax), parseInt_decimalDigits]
    intro c hc
    have hle := (hcodes c hc).2
    omega
  have hcolon : ∀ c ∈ decimalDigits sequence, c.code ≠ 58 := by
    intro c hc
    have hle := (hcodes c hc).2
    omega
  have hsplit := splitLastColon_append recipient hcolon
  rw [Api.parseMessageId, unb64_base64Encode, Py.ok_bind,
    decodeUtf8_of_encodeUtf8 (encodeBody_eq_ok.mp hdata)]
  dsimp only
  rw [Py.pure_eq_ok, Py.ok_bind, hsplit]
  dsimp only
  rw [hint]
  rfl

end OpenQSP
