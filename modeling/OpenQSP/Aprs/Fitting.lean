import OpenQSP.Aprs.Fragments

/-!
# What a frame becomes on the air

The encoder of basE91 looks its characters up by number, and every number that it computes is one of
the alphabet. So the text is printable, free of the brace that opens a message id, and its length is
bounded by the length of the data alone, thirteen bits to the pair. With this bound a frame of any
content fits the profile: at most six messages under Q2, at most sixteen under Q1.

## Main definitions

* `base91Indices` — the numbers that the encoder computes

## Main results

* `base91Encode_eq_map`, `lt_of_mem_base91Indices`
* `base91_text` — the text is read back, and is made of the alphabet
* `frame_fits` — every frame fits both profiles
-/

namespace OpenQSP

open Py

/-! ### The alphabet -/

/-- The numbers of the two characters of a value. -/
def base91Digits (encoded : ℕ) : List ℕ := [encoded % 91, encoded / 91]

/-- The numbers that the encoder's loop looks up in the alphabet. -/
def base91IndexLoop : Bytes → ℕ → ℕ → List ℕ
  | [], value, bits =>
    if bits = 0 then []
    else if 7 < bits ∨ 90 < value then base91Digits value
    else (base91Digits value).take 1
  | byte :: data, value, bits =>
    let value := value ||| byte.toNat <<< bits
    let bits := bits + 8
    if 13 < bits then
      let encoded := value &&& 8191
      if 88 < encoded then
        base91Digits encoded ++ base91IndexLoop data (value >>> 13) (bits - 13)
      else
        base91Digits (value &&& 16383) ++ base91IndexLoop data (value >>> 14) (bits - 14)
    else base91IndexLoop data value bits

def base91Indices (data : Bytes) : List ℕ := base91IndexLoop data 0 0

/-- The character that stands for a number. -/
def base91Char (i : ℕ) : PyChar := base91Alphabet.getD i base91Pair.default

theorem length_base91Alphabet : base91Alphabet.length = 91 := by
  decide +kernel

theorem base91Pair_eq_map (encoded : ℕ) : base91Pair encoded =
    (base91Digits encoded).map base91Char :=
  rfl

theorem base91EncodeLoop_eq_map (data : Bytes) (value bits : ℕ) :
    base91EncodeLoop data value bits = (base91IndexLoop data value bits).map base91Char := by
  induction data generalizing value bits with
  | nil =>
    rw [base91EncodeLoop, base91IndexLoop]
    split
    · rfl
    · split
      · rfl
      · rfl
  | cons byte data ih =>
    rw [base91EncodeLoop, base91IndexLoop]
    dsimp only
    split
    · split
      · rw [ih, List.map_append, base91Pair_eq_map]
      · rw [ih, List.map_append, base91Pair_eq_map]
    · exact ih _ _

theorem base91Encode_eq_map (data : Bytes) : base91Encode data =
    (base91Indices data).map base91Char :=
  base91EncodeLoop_eq_map data 0 0

theorem lt_of_mem_base91Digits {encoded i : ℕ} (h : encoded < 91 * 91)
    (hi : i ∈ base91Digits encoded) :
    i < 91 := by
  rcases List.mem_pair.mp hi with rfl | rfl
  · exact Nat.mod_lt _ (by decide)
  · exact Nat.div_lt_of_lt_mul h

theorem base91IndexLoop_cons {byte : UInt8} {data : Bytes} {value bits joined : ℕ}
    (h : value < 2 ^ bits) (hjoined : joined = value + 2 ^ bits * byte.toNat) :
    base91IndexLoop (byte :: data) value bits =
      if 13 < bits + 8 then base91Digits (joined % 2 ^ base91Width joined) ++
        base91IndexLoop data (joined / 2 ^ base91Width joined) (bits + 8 - base91Width joined)
      else base91IndexLoop data joined (bits + 8) := by
  have h13 : joined &&& 8191 = joined % 8192 := Nat.and_two_pow_sub_one_eq_mod joined 13
  have h14 : joined &&& 16383 = joined % 16384 := Nat.and_two_pow_sub_one_eq_mod joined 14
  rw [base91IndexLoop, or_shiftLeft h, ← hjoined, h13, h14, Nat.shiftRight_eq_div_pow,
    Nat.shiftRight_eq_div_pow]
  dsimp only
  split
  · rcases base91Width_cases joined with ⟨hwidth, h⟩ | ⟨hwidth, h⟩
    · rw [if_pos h, hwidth]
      rfl
    · rw [if_neg (Nat.not_lt.mpr h), hwidth]
      rfl
  · rfl

/-- Between the bytes at most thirteen bits are held, and the pair that is written is below `91 *
91` whatever they are. -/
theorem lt_of_mem_base91IndexLoop {data : Bytes} {value bits i : ℕ} (hvalue : value < 2 ^ bits)
    (hbits : bits ≤ 13) (hi : i ∈ base91IndexLoop data value bits) : i < 91 := by
  induction data generalizing value bits with
  | nil =>
    have hlt : value < 91 * 91 :=
      lt_of_lt_of_le (lt_of_lt_of_le hvalue (Nat.pow_le_pow_right (by decide) hbits)) (by decide)
    rw [base91IndexLoop] at hi
    split at hi
    · exact absurd hi List.not_mem_nil
    · split at hi
      · exact lt_of_mem_base91Digits hlt hi
      · exact lt_of_mem_base91Digits hlt (List.mem_of_mem_take hi)
  | cons byte data ih =>
    obtain ⟨joined, hjoined⟩ : ∃ joined, joined = value + 2 ^ bits * byte.toNat := ⟨_, rfl⟩
    have hlt : joined < 2 ^ (bits + 8) := by
      have hbyte := byte.toNat_lt
      have : 2 ^ bits * byte.toNat ≤ 2 ^ bits * 255 := Nat.mul_le_mul_left _ (by omega)
      rw [hjoined, pow_add]
      omega
    rw [base91IndexLoop_cons hvalue hjoined] at hi
    split at hi
    · have hk := (base91Width_cases joined).imp And.left And.left
      rcases List.mem_append.mp hi with hi | hi
      · exact lt_of_mem_base91Digits (mod_base91Width joined).1 hi
      · refine ih (Nat.div_lt_of_lt_mul ?_) (by omega) hi
        rw [← pow_add, Nat.add_sub_cancel' (by omega)]
        exact hlt
    · exact ih hlt (by omega) hi

theorem lt_of_mem_base91Indices {data : Bytes} {i : ℕ} (hi : i ∈ base91Indices data) : i < 91 :=
  lt_of_mem_base91IndexLoop Nat.one_pos (by decide) hi

/-- `!` to `~`, without `\x7b`, `|` and `~`. -/
def PyChar.IsBase91 (c : PyChar) : Prop :=
  33 ≤ c.code ∧ c.code ≤ 126 ∧ c.code ≠ 123 ∧ c.code ≠ 124 ∧ c.code ≠ 126

instance (c : PyChar) : Decidable c.IsBase91 :=
  inferInstanceAs (Decidable (33 ≤ c.code ∧ c.code ≤ 126 ∧ c.code ≠ 123 ∧ c.code ≠ 124 ∧
    c.code ≠ 126))

theorem isBase91_base91Char {i : ℕ} (h : i < 91) : (base91Char i).IsBase91 := by
  have hall : ∀ i : Fin 91, (base91Char i).IsBase91 := by decide +kernel
  exact hall ⟨i, h⟩

theorem isBase91_of_mem_base91Encode {data : Bytes} {c : PyChar} (hc : c ∈ base91Encode data) :
    c.IsBase91 := by
  rw [base91Encode_eq_map] at hc
  obtain ⟨i, hi, rfl⟩ := List.mem_map.mp hc
  exact isBase91_base91Char (lt_of_mem_base91Indices hi)

/-- The text of basE91 is read back as the data. Every number that the encoder looks up is one of
the alphabet, which has 91 characters, all of them printable and none of them reserved. -/
theorem base91_text (data : Bytes) (h : data ≠ []) :
    base91Decode (base91Encode data) = .ok data ∧ (∀ c ∈ base91Encode data, c.IsBase91) ∧
      base91Encode data = (base91Indices data).map base91Char ∧
      base91Alphabet.length = 91 ∧ ∀ i ∈ base91Indices data, i < 91 :=
  ⟨base91Decode_base91Encode h, fun _ => isBase91_of_mem_base91Encode, base91Encode_eq_map data,
    length_base91Alphabet, fun _ => lt_of_mem_base91Indices⟩

/-- The frame of an `END`. -/
def endFrame : Bytes := [1, 67, 0, 7, 2, 2, 0, 0, 48, 57, 1]

theorem base91_text_endFrame : base91Decode (base91Encode endFrame) = .ok endFrame ∧
    (∀ c ∈ base91Encode endFrame, c.IsBase91) ∧
    base91Encode endFrame = (base91Indices endFrame).map base91Char ∧
    base91Alphabet.length = 91 ∧ ∀ i ∈ base91Indices endFrame, i < 91 :=
  base91_text endFrame (by decide)

/-! ### Fragments -/

theorem fragmentFrameV2_eq {frame : Bytes} {transactionId : Str} {fragments : List APRSFragment}
    (h : fragmentFrameV2 frame transactionId = .ok fragments) :
    fragments = (chunks v2DataChunkSize frame).zipIdx.map fun p =>
      ⟨transactionId, p.2, (chunks v2DataChunkSize frame).length, base91Encode p.1, none, 2,
        some p.1⟩ := by
  obtain ⟨-, -, h⟩ := bind_eq_ok.mp h
  obtain ⟨-, -, h⟩ := bind_eq_ok.mp h
  obtain ⟨-, -, h⟩ := bind_eq_ok.mp h
  obtain ⟨-, -, h⟩ := bind_eq_ok.mp h
  exact (Except.ok.inj h).symm

theorem fragmentFrame_eq {frame : Bytes} {transactionId : Str} {fragments : List APRSFragment}
    (h : fragmentFrame frame transactionId = .ok fragments) :
    fragments.length ≤ maxFragments ∧ ∀ fragment ∈ fragments,
      fragment.transactionId = transactionId ∧
      fragment.version = 1 ∧ fragment.data.length ≤ dataChunkSize ∧
      fragment.index < fragments.length ∧ fragment.total = fragments.length := by
  obtain ⟨-, -, h⟩ := bind_eq_ok.mp h
  obtain ⟨text, -, h⟩ := bind_eq_ok.mp h
  obtain ⟨_, hcount, h⟩ := bind_eq_ok.mp h
  obtain rfl := Except.ok.inj h
  rw [raiseIf_eq_ok, not_or, Nat.not_lt] at hcount
  rw [List.length_map, List.length_zipIdx]
  refine ⟨hcount.2, fun fragment hfragment => ?_⟩
  obtain ⟨⟨piece, i⟩, hmem, rfl⟩ := List.mem_map.mp hfragment
  obtain ⟨hi, hpiece⟩ := List.mem_zipIdx' hmem
  exact ⟨rfl, rfl, (mem_chunks (by decide) (hpiece ▸ List.getElem_mem hi)).2.1, hi, rfl⟩

/-- The body of a Q2 fragment is checked when it is made. -/
theorem APRSFragment.body_q2 {fragment : APRSFragment} {text : Str}
    (hversion : fragment.version = 2)
    (h : fragment.body = .ok text) : text.length ≤ maxAprsBody ∧ openBrace ∉ text := by
  rw [APRSFragment.body, if_pos hversion] at h
  obtain ⟨transaction, -, h⟩ := bind_eq_ok.mp h
  obtain ⟨-, -, h⟩ := bind_eq_ok.mp h
  cases hraw : fragment.rawData with
  | none =>
    rw [hraw] at h
    cases h
  | some raw =>
    rw [hraw] at h
    obtain ⟨_, hlength, h⟩ := bind_eq_ok.mp h
    obtain rfl := Except.ok.inj h
    rw [raiseIf_eq_ok, Nat.not_lt] at hlength
    refine ⟨hlength, ?_⟩
    rw [List.mem_append, not_or]
    exact ⟨by decide, openBrace_notMem_base91EncodeLoop _ 0 0⟩

/-- The body of a Q1 fragment with a message id of two characters. -/
theorem APRSFragment.body_q1 {fragment : APRSFragment} {messageId : Str}
    (hversion : fragment.version = 1)
    (htransaction : fragment.transactionId.length = 3)
      (hdata : fragment.data.length ≤ dataChunkSize)
    (hindex : fragment.index < 36 ^ 2) (htotal : fragment.total < 36 ^ 2)
      (hid : messageId.length = 2) :
    ∃ text, ({ fragment with messageId := some messageId } : APRSFragment).body = .ok text ∧
      text.length ≤ maxAprsBody := by
  refine ⟨str "Q1:" ++ fragment.transactionId ++ str ":" ++ base36Digits 2 fragment.index ++
    str "/" ++
    base36Digits 2 fragment.total ++ str ":" ++ fragment.data ++ [openBrace] ++ messageId, ?_, ?_⟩
  · rw [APRSFragment.body, if_neg (by rw [hversion]; decide)]
    exact bind_eq_ok.mpr ⟨_, base36_ok hindex, bind_eq_ok.mpr ⟨_, base36_ok htotal, rfl⟩⟩
  · have h1 : (str ":").length = 1 := rfl
    have h2 : (str "/").length = 1 := rfl
    have h3 : (str "Q1:").length = 3 := rfl
    rw [dataChunkSize] at hdata
    rw [maxAprsBody]
    simp only [List.length_append, List.length_singleton, length_base36Digits, htransaction, hid,
      h1, h2, h3]
    omega

section Frame

variable {frame : Bytes} {transactionId : Str} {decoded : ProtocolObject × UInt8} {value : ℕ}

theorem fragmentFrameV2_fits (hframe : decodeFrameWithFlags frame = .ok decoded)
    (htransaction : parseBase36 transactionId 3 = .ok value) (hvalue : value ≤ 0xFF) :
    ∃ fragments, ∃ pieces : List Bytes, fragmentFrameV2 frame transactionId = .ok fragments ∧
      fragments.length = (frame.length + 49) / 50 ∧ fragments.length ≤ 6 ∧
      fragments.map (·.rawData) = pieces.map some ∧ pieces.flatten = frame ∧
      ∀ fragment ∈ fragments, ∃ body, fragment.body = .ok body ∧ body.length ≤ maxAprsBody ∧
        openBrace ∉ body := by
  obtain ⟨fragments, hfragments, hfragmentation⟩ :=
    fragmentFrameV2_ok hframe ⟨value, htransaction, hvalue⟩
  have heq := fragmentFrameV2_eq hfragments
  have hlength : fragments.length = (frame.length + 49) / 50 := by
    rw [heq, List.length_map, List.length_zipIdx, length_chunks, v2DataChunkSize]
    rfl
  have hmax := (length_of_decodeFrameWithFlags hframe).2
  rw [maxFrameSize, headerSize, maxPayloadSize] at hmax
  refine ⟨fragments, chunks v2DataChunkSize frame, hfragments, hlength, by omega, ?_,
    flatten_chunks (by decide), fun fragment hfragment => ?_⟩
  · rw [heq, List.map_map]
    refine List.ext_getElem ?_ fun i hi hi' => ?_
    · rw [List.length_map, List.length_zipIdx, List.length_map]
    · rw [List.getElem_map, List.getElem_map, List.getElem_zipIdx]
      rfl
  · obtain ⟨body, hbody, -⟩ := hfragmentation.body fragment hfragment
    exact ⟨body, hbody, APRSFragment.body_q2 (hfragmentation.version fragment hfragment) hbody⟩

theorem fragmentFrame_fits (hframe : decodeFrameWithFlags frame = .ok decoded)
    (htransaction : parseBase36 transactionId 3 = .ok value) :
    ∃ fragments, fragmentFrame frame transactionId = .ok fragments ∧
      fragments.length ≤ maxFragments ∧
      ∀ fragment ∈ fragments, ∀ messageId : Str, messageId.length = 2 →
        ∃ body, ({ fragment with messageId := some messageId } : APRSFragment).body = .ok body ∧
          body.length ≤ maxAprsBody := by
  obtain ⟨fragments, hfragments, -⟩ := fragmentFrame_ok hframe ⟨value, htransaction, trivial⟩
  obtain ⟨hcount, hmem⟩ := fragmentFrame_eq hfragments
  refine ⟨fragments, hfragments, hcount, fun fragment hfragment messageId hid => ?_⟩
  obtain ⟨rfl, hversion, hdata, hindex, htotal⟩ := hmem fragment hfragment
  rw [maxFragments] at hcount
  exact APRSFragment.body_q1 hversion (parseBase36_eq_ok htransaction).1 hdata (by omega)
    (by omega) hid

/-- A frame that the codec accepts is carried by either profile: under Q2 by at most six fragments,
and under Q1 by at most sixteen, each one short enough for an APRS message. -/
theorem frame_fits (hframe : decodeFrameWithFlags frame = .ok decoded) :
    (∀ transactionId value, parseBase36 transactionId 3 = .ok value → value ≤ 0xFF →
      ∃ fragments, ∃ pieces : List Bytes, fragmentFrameV2 frame transactionId = .ok fragments ∧
        fragments.length = (frame.length + 49) / 50 ∧ fragments.length ≤ 6 ∧
        fragments.map (·.rawData) = pieces.map some ∧ pieces.flatten = frame ∧
        ∀ fragment ∈ fragments, ∃ body, fragment.body = .ok body ∧ body.length ≤ maxAprsBody ∧
          openBrace ∉ body) ∧
    (∀ transactionId value, parseBase36 transactionId 3 = .ok value →
      ∃ fragments, fragmentFrame frame transactionId = .ok fragments ∧
        fragments.length ≤ maxFragments ∧
        ∀ fragment ∈ fragments, ∀ messageId : Str, messageId.length = 2 →
          ∃ body, ({ fragment with messageId := some messageId } : APRSFragment).body = .ok body ∧
            body.length ≤ maxAprsBody) ∧
    ∀ data : Bytes, (base91Encode data).length ≤ 2 * ((8 * data.length + 12) / 13) :=
  ⟨fun _ _ => fragmentFrameV2_fits hframe, fun _ _ => fragmentFrame_fits hframe,
    length_base91Encode_le⟩

end Frame

/-- A `SEND_MESSAGE` with a body of 120 letters. -/
def lettersFrame : Bytes :=
  [1, 1, 0, 131, 101, 83, 241, 0, 5, 75, 49, 88, 89, 90, 120] ++ List.replicate 120 120

theorem frame_fits_lettersFrame :
    (∃ fragments, ∃ pieces : List Bytes, fragmentFrameV2 lettersFrame (str "001") = .ok fragments ∧
      fragments.length = 3 ∧ fragments.map (·.rawData) = pieces.map some ∧
      pieces.flatten = lettersFrame ∧
      ∀ fragment ∈ fragments, ∃ body, fragment.body = .ok body ∧ body.length ≤ maxAprsBody ∧
        openBrace ∉ body) ∧
    ∃ fragments, fragmentFrame lettersFrame (str "ZZZ") = .ok fragments ∧
      fragments.length ≤ maxFragments ∧
      ∀ fragment ∈ fragments, ∀ messageId : Str, messageId.length = 2 →
        ∃ body, ({ fragment with messageId := some messageId } : APRSFragment).body = .ok body ∧
          body.length ≤ maxAprsBody := by
  obtain ⟨hq2, hq1, -⟩ := frame_fits (show decodeFrameWithFlags lettersFrame =
    .ok (.sendMessage ⟨1700000000, str "K1XYZ", List.replicate 120 (.scalar 'x')⟩, 0) by
      decide +kernel)
  obtain ⟨fragments, pieces, hfragments, hlength, -, hpieces⟩ :=
    hq2 (str "001") 1 (by decide +kernel) (by decide)
  exact ⟨⟨fragments, pieces, hfragments, hlength.trans (by decide +kernel), hpieces⟩,
    hq1 (str "ZZZ") 46655 (by decide +kernel)⟩

end OpenQSP
