import OpenQSP.Aprs.Encoding
import OpenQSP.Aprs.State
import OpenQSP.Protocol.RoundTrip

/-!
# The fragments of a frame

Every Core frame is cut into fragments under either profile, for every transaction id of the
profile. The body of a fragment is parsed back to the fragment, and an assembly that holds the part
of each fragment makes the frame again.

## Main definitions

* `Profile` — Q1 and Q2
* `Fragmentation` — what the fragments of a frame have to be

## Main results

* `flatten_chunks` — slices make the whole
* `parseFragment_bodyQ1`, `parseFragment_bodyQ2` — a body is parsed back to its fragment
* `Profile.fragmentFrame_ok` — every frame is cut into fragments
-/

namespace OpenQSP

open Py

/-! ### Slices -/

section Chunks

variable {α : Type} {size : ℕ} {l : List α}

theorem length_chunks : (chunks size l).length = (l.length + size - 1) / size := by
  rw [chunks, List.length_map, List.length_range]

/-- The first `n` slices are what precedes the next one. -/
theorem flatten_map_range_chunks (n : ℕ) :
    ((List.range n).map fun i => (l.drop (size * i)).take size).flatten = l.take (size * n) := by
  induction n with
  | zero => rw [Nat.mul_zero, List.take_zero]; rfl
  | succ n ih =>
    rw [List.range_succ, List.map_append, List.flatten_append, ih, Nat.mul_succ, List.take_add]
    rw [List.map_singleton, List.flatten_singleton]

theorem flatten_chunks (hsize : 0 < size) : (chunks size l).flatten = l := by
  have hle : l.length ≤ size * ((l.length + size - 1) / size) := by
    have h := Nat.lt_mul_div_succ (l.length + size - 1) hsize
    rw [Nat.mul_add, Nat.mul_one] at h
    omega
  rw [chunks, flatten_map_range_chunks, List.take_of_length_le hle]

theorem mem_chunks {piece : List α} (hsize : 0 < size) (h : piece ∈ chunks size l) :
    piece ≠ [] ∧ piece.length ≤ size ∧ ∀ a ∈ piece, a ∈ l := by
  obtain ⟨i, hi, rfl⟩ := List.mem_map.mp h
  have hlt : size * i < l.length := by
    have hle : size * (i + 1) ≤ size * ((l.length + size - 1) / size) :=
      Nat.mul_le_mul_left _ (List.mem_range.mp hi)
    have hdiv := Nat.mul_div_le (l.length + size - 1) size
    rw [Nat.mul_add, Nat.mul_one] at hle
    omega
  refine ⟨fun hnil => ?_, ?_, fun a ha => List.mem_of_mem_drop (List.mem_of_mem_take ha)⟩
  · have hlength := congrArg List.length hnil
    rw [List.length_take, List.length_drop, List.length_nil] at hlength
    omega
  · rw [List.length_take]
    exact Nat.min_le_left _ _

end Chunks

/-! ### Bodies -/

theorem openBrace_notMem_of_all {text : Str} {p : PyChar → Bool} (h : text.all p)
    (hbrace : p openBrace = false) : openBrace ∉ text := fun hmem =>
  Bool.false_ne_true (hbrace.symm.trans (List.all_eq_true.mp h openBrace hmem))

theorem parseFragment_bodyQ1 {transactionId data : Str} {index total value : ℕ}
    (htransaction : parseBase36 transactionId 3 = .ok value) (hdata : data.all PyChar.isBase64)
    (hne : data ≠ []) (hlen : data.length ≤ dataChunkSize) (hindex : index < total)
    (htotal : total ≤ maxFragments) :
    ∃ body, (⟨transactionId, index, total, data, none, 1, none⟩ : APRSFragment).body = .ok body ∧
      parseFragment body = .ok ⟨transactionId, index, total, data, none, 1, none⟩ := by
  rw [maxFragments] at htotal
  obtain ⟨hthree, hbase36, -⟩ := parseBase36_eq_ok htransaction
  obtain ⟨a, b, c, rfl⟩ := List.length_eq_three.mp hthree
  obtain ⟨x, y, hxy⟩ := List.length_eq_two.mp (length_base36Digits 2 index)
  obtain ⟨z, w, hzw⟩ := List.length_eq_two.mp (length_base36Digits 2 total)
  have hindexAll := all_isBase36_base36Digits 2 index
  have htotalAll := all_isBase36_base36Digits 2 total
  have hindexParse : parseBase36 [x, y] 2 = .ok index :=
    hxy ▸ parseBase36_base36Digits (by omega)
  have htotalParse : parseBase36 [z, w] 2 = .ok total :=
    hzw ▸ parseBase36_base36Digits (by omega)
  rw [hxy] at hindexAll
  rw [hzw] at htotalAll
  obtain ⟨body, hbody⟩ : ∃ body : Str, body = .scalar 'Q' :: .scalar '1' :: .scalar ':' :: a ::
    b :: c ::
      .scalar ':' :: x :: y :: .scalar '/' :: z :: w :: .scalar ':' :: data := ⟨_, rfl⟩
  refine ⟨body, ?_, ?_⟩
  · rw [APRSFragment.body, if_neg (show (1 : ℕ) ≠ 2 by decide),
      base36_ok (by omega : index < 36 ^ 2),
      hxy, base36_ok (by omega : total < 36 ^ 2), hzw, hbody]
    rfl
  · have happend : body = str "Q1:" ++ [a, b, c] ++ str ":" ++ [x, y] ++ str "/" ++ [z, w] ++
      str ":" ++
        data := hbody
    have hbrace : openBrace ∉ body := by
      simp only [happend, List.mem_append, not_or]
      exact ⟨⟨⟨⟨⟨⟨⟨by decide, openBrace_notMem_of_all hbase36 rfl⟩, by decide⟩,
        openBrace_notMem_of_all hindexAll rfl⟩, by decide⟩,
        openBrace_notMem_of_all htotalAll rfl⟩, by decide⟩, openBrace_notMem_of_all hdata rfl⟩
    have hmatch : matchFragment body = some ([a, b, c], [x, y], [z, w], data) := by
      rw [matchFragment, hbody]
      exact if_pos ⟨rfl, rfl, rfl, rfl, hbase36, hindexAll, htotalAll, hdata, hne, hlen⟩
    have hq2 : body.take 2 ≠ str "Q2" := by
      rw [hbody]
      show [PyChar.scalar 'Q', .scalar '1'] ≠ str "Q2"
      decide
    rw [parseFragment, if_neg hq2, if_neg hbrace]
    dsimp only
    rw [hmatch]
    refine bind_eq_ok.mpr ⟨(), raiseIf_of_not (by simp) _, bind_eq_ok.mpr ⟨index, hindexParse,
      bind_eq_ok.mpr ⟨total, htotalParse, bind_eq_ok.mpr ⟨(), raiseIf_of_not ?_ _, rfl⟩⟩⟩⟩
    rw [maxFragments]
    omega

/-- The byte that holds the index and the count. -/
theorem descriptor_eq {index total : ℕ} (hindex : index < total) (htotal : total ≤ maxFragments) :
    (UInt8.ofNat (index <<< 4 ||| (total - 1))).toNat >>> 4 = index ∧
      ((UInt8.ofNat (index <<< 4 ||| (total - 1))).toNat &&& 0x0F) + 1 = total := by
  have hall : ∀ i j : Fin 16, (UInt8.ofNat (i.1 <<< 4 ||| j.1)).toNat >>> 4 = i ∧
      ((UInt8.ofNat (i.1 <<< 4 ||| j.1)).toNat &&& 0x0F) = j := by decide +kernel
  rw [maxFragments] at htotal
  obtain ⟨h₁, h₂⟩ := hall ⟨index, by omega⟩ ⟨total - 1, by omega⟩
  refine ⟨h₁, ?_⟩
  rw [h₂]
  exact Nat.sub_add_cancel (by omega)

theorem transactionByte_eq {transactionId : Str} {value : ℕ}
    (h : parseBase36 transactionId 3 = .ok value) (hvalue : value ≤ 0xFF) :
    transactionByte transactionId = .ok (UInt8.ofNat value) ∧
      base36 (UInt8.ofNat value).toNat 3 = .ok transactionId := by
  have htoNat : (UInt8.ofNat value).toNat = value := Nat.mod_eq_of_lt (Nat.lt_succ_of_le hvalue)
  refine ⟨bind_eq_ok.mpr ⟨value, h, bind_eq_ok.mpr ⟨(), raiseIf_of_not (Nat.not_lt.mpr hvalue) _,
    rfl⟩⟩, ?_⟩
  rw [htoNat, base36_ok (by omega), base36Digits_of_parseBase36 h]

theorem parseFragment_bodyQ2 {transactionId : Str} {raw : Bytes} {index total value : ℕ}
    (htransaction : parseBase36 transactionId 3 = .ok value) (hvalue : value ≤ 0xFF)
    (hne : raw ≠ []) (hlen : raw.length ≤ v2DataChunkSize) (hindex : index < total)
    (htotal : total ≤ maxFragments) :
    ∃ body, (⟨transactionId, index, total, base91Encode raw, none, 2, some raw⟩ :
      APRSFragment).body =
        .ok body ∧
      parseFragment body = .ok ⟨transactionId, index, total, base91Encode raw, none, 2,
        some raw⟩ := by
  obtain ⟨hbyte, hid⟩ := transactionByte_eq htransaction hvalue
  obtain ⟨hshift, hand⟩ := descriptor_eq hindex htotal
  obtain ⟨packed, hpacked⟩ : ∃ packed : Bytes, packed =
      [UInt8.ofNat value, UInt8.ofNat (index <<< 4 ||| (total - 1))] ++ raw := ⟨_, rfl⟩
  have hpackedLen : packed.length = raw.length + 2 := by
    rw [hpacked, List.length_append, Nat.add_comm]
    rfl
  refine ⟨str "Q2" ++ base91Encode packed, ?_, ?_⟩
  · have hfits : ¬maxAprsBody < (str "Q2" ++ base91Encode packed).length := by
      have hencoded := length_base91Encode_le packed
      have htwo : (str "Q2").length = 2 := rfl
      rw [v2DataChunkSize] at hlen
      rw [maxAprsBody, List.length_append, htwo]
      omega
    refine bind_eq_ok.mpr ⟨_, hbyte, bind_eq_ok.mpr ⟨(),
      raiseIf_of_not (not_not.mpr ⟨hindex, htotal⟩) _, ?_⟩⟩
    rw [hpacked] at hfits ⊢
    exact bind_eq_ok.mpr ⟨(), raiseIf_of_not hfits _, rfl⟩
  · have hbrace : openBrace ∉ str "Q2" ++ base91Encode packed := by
      rw [List.mem_append, not_or]
      exact ⟨by decide, openBrace_notMem_base91EncodeLoop packed 0 0⟩
    have hdrop : (str "Q2" ++ base91Encode packed).drop 2 = base91Encode packed := rfl
    have htake : (str "Q2" ++ base91Encode packed).take 2 = str "Q2" := rfl
    have hdecode : base91Decode (base91Encode packed) = .ok packed :=
      base91Decode_base91Encode (by rw [hpacked]; exact List.cons_ne_nil _ _)
    rw [parseFragment, if_pos htake]
    refine bind_eq_ok.mpr ⟨(), raiseIf_of_not hbrace _, bind_eq_ok.mpr ⟨packed, hdrop ▸ hdecode,
      bind_eq_ok.mpr ⟨(), raiseIf_of_not ?_ _, bind_eq_ok.mpr ⟨(), raiseIf_of_not ?_ _,
      bind_eq_ok.mpr ⟨(), raiseIf_of_not ?_ _, bind_eq_ok.mpr ⟨transactionId, ?_, ?_⟩⟩⟩⟩⟩⟩
    · have := List.length_pos_iff.mpr hne
      omega
    · rw [hpacked]
      show ¬((UInt8.ofNat (index <<< 4 ||| (total - 1))).toNat &&& 0x0F) + 1 ≤
        (UInt8.ofNat (index <<< 4 ||| (total - 1))).toNat >>> 4
      rw [hand, hshift]
      exact Nat.not_le.mpr hindex
    · rw [hpacked]
      show ¬(raw = [] ∨ v2DataChunkSize < raw.length)
      exact not_or.mpr ⟨hne, Nat.not_lt.mpr hlen⟩
    · rw [hpacked]
      exact hid
    · rw [hpacked]
      show Except.ok (⟨transactionId, (UInt8.ofNat (index <<< 4 ||| (total - 1))).toNat >>> 4,
        ((UInt8.ofNat (index <<< 4 ||| (total - 1))).toNat &&& 0x0F) + 1, base91Encode raw, none, 2,
        some raw⟩ : APRSFragment) = _
      rw [hand, hshift]

/-! ### Fragmentations -/

inductive Profile
  | q1
  | q2

namespace Profile

def version : Profile → ℕ
  | q1 => 1
  | q2 => 2

def fragmentFrame : Profile → Bytes → Str → Py (List APRSFragment)
  | q1 => OpenQSP.fragmentFrame
  | q2 => fragmentFrameV2

/-- Three base-36 characters, which for Q2 are the number of a byte. -/
def ValidTransaction (profile : Profile) (transactionId : Str) : Prop :=
  ∃ value, parseBase36 transactionId 3 = .ok value ∧
    match profile with
    | q1 => True
    | q2 => value ≤ 0xFF

end Profile

/-- What the fragments of a frame have to be: numbered, of one profile and transaction, each one
parsed back from its body, and together the frame. -/
structure Fragmentation (profile : Profile) (frame : Bytes) (transactionId : Str)
    (fragments : List APRSFragment) : Prop where
  nonempty : fragments ≠ []
  index : ∀ i (h : i < fragments.length), fragments[i].index = i
  transactionId : ∀ fragment ∈ fragments, fragment.transactionId = transactionId
  version : ∀ fragment ∈ fragments, fragment.version = profile.version
  total : ∀ fragment ∈ fragments, fragment.total = fragments.length
  part : ∀ fragment ∈ fragments, ∃ part, fragment.part = .ok part
  body : ∀ fragment ∈ fragments, ∃ body, fragment.body = .ok body ∧
    parseFragment body = .ok fragment
  frame : ∀ entry : Assembly, entry.version = profile.version → entry.total = fragments.length →
    (∀ fragment ∈ fragments, ∃ part, fragment.part = .ok part ∧
      entry.parts.get? fragment.index = some part) → entry.frame = .ok frame

/-- Fragments that are made of pieces, in order. -/
theorem Fragmentation.of_pieces {α : Type} {profile : Profile} {frame : Bytes} {transactionId : Str}
    {pieces : List α} (make : α → ℕ → APRSFragment) (part : α → Part) (hnonempty : pieces ≠ [])
    (hmake : ∀ piece index, (make piece index).index = index ∧
      (make piece index).transactionId = transactionId ∧
        (make piece index).version = profile.version ∧
      (make piece index).total = pieces.length ∧ (make piece index).part = .ok (part piece))
    (hbody : ∀ piece ∈ pieces, ∀ index < pieces.length, ∃ body, (make piece index).body = .ok body ∧
      parseFragment body = .ok (make piece index))
    (hframe : ∀ entry : Assembly, entry.version = profile.version → entry.total = pieces.length →
      (∀ i (h : i < pieces.length), entry.partAt i = .ok (part pieces[i])) →
        entry.frame = .ok frame) :
    Fragmentation profile frame transactionId (pieces.zipIdx.map fun p => make p.1 p.2) := by
  have hlength : (pieces.zipIdx.map fun p => make p.1 p.2).length = pieces.length := by
    rw [List.length_map, List.length_zipIdx]
  have hget : ∀ i (h : i < (pieces.zipIdx.map fun p => make p.1 p.2).length)
    (hi : i < pieces.length),
      (pieces.zipIdx.map fun p => make p.1 p.2)[i] = make pieces[i] i := by
    intro i h hi
    rw [List.getElem_map, List.getElem_zipIdx, Nat.zero_add]
  have hmem : ∀ fragment ∈ pieces.zipIdx.map fun p => make p.1 p.2,
      ∃ piece index, piece ∈ pieces ∧ index < pieces.length ∧ fragment = make piece index := by
    intro fragment hfragment
    obtain ⟨i, hi, rfl⟩ := List.getElem_of_mem hfragment
    have hi' : i < pieces.length := hlength ▸ hi
    exact ⟨pieces[i], i, List.getElem_mem _, hi', hget i hi hi'⟩
  refine ⟨?_, ?_, ?_, ?_, ?_, ?_, ?_, ?_⟩
  · exact fun hnil => hnonempty (List.length_eq_zero_iff.mp (hlength ▸ congrArg List.length hnil))
  · intro i h
    rw [hget i h (hlength ▸ h)]
    exact (hmake _ _).1
  · rintro fragment hfragment
    obtain ⟨piece, index, -, -, rfl⟩ := hmem fragment hfragment
    exact (hmake _ _).2.1
  · rintro fragment hfragment
    obtain ⟨piece, index, -, -, rfl⟩ := hmem fragment hfragment
    exact (hmake _ _).2.2.1
  · rintro fragment hfragment
    obtain ⟨piece, index, -, -, rfl⟩ := hmem fragment hfragment
    exact (hmake _ _).2.2.2.1.trans hlength.symm
  · rintro fragment hfragment
    obtain ⟨piece, index, -, -, rfl⟩ := hmem fragment hfragment
    exact ⟨_, (hmake _ _).2.2.2.2⟩
  · rintro fragment hfragment
    obtain ⟨piece, index, hpiece, hindex, rfl⟩ := hmem fragment hfragment
    exact hbody piece hpiece index hindex
  · intro entry hversion htotal hparts
    refine hframe entry hversion (htotal.trans hlength) fun i h => ?_
    obtain ⟨p, hpart, hcollected⟩ := hparts (make pieces[i] i)
      (List.mem_map.mpr ⟨(pieces[i], i), List.mem_zipIdx_iff_getElem?.mpr
        (List.getElem?_eq_getElem h), rfl⟩)
    rw [(hmake _ _).1] at hcollected
    obtain rfl := Except.ok.inj ((hmake _ _).2.2.2.2.symm.trans hpart)
    rw [Assembly.partAt, hcollected]

/-- The parts of a complete assembly, in order. -/
theorem mapM_range_partAt {α : Type} {pieces : List α} {f : ℕ → Py α}
    (h : ∀ i (hi : i < pieces.length), f i = .ok pieces[i]) :
    (List.range pieces.length).mapM f = .ok pieces := by
  refine mapM_eq_ok.mpr (List.forall₂_iff_get.mpr ⟨List.length_range, fun i hi hi' => ?_⟩)
  rw [List.get_eq_getElem, List.get_eq_getElem, List.getElem_range]
  exact h i hi'

theorem checkFrame_ok {frame : Bytes} {decoded : ProtocolObject × UInt8}
    (h : decodeFrameWithFlags frame = .ok decoded) : checkFrame frame = .ok () := by
  obtain ⟨hmin, hmax⟩ := length_of_decodeFrameWithFlags h
  refine bind_eq_ok.mpr ⟨(), raiseIf_of_not ?_ _, bind_eq_ok.mpr ⟨decoded, h, rfl⟩⟩
  rintro (rfl | hlt)
  · exact absurd hmin (by decide)
  · exact absurd hlt (Nat.not_lt.mpr hmax)

section Frame

variable {frame : Bytes} {transactionId : Str} {decoded : ProtocolObject × UInt8}

theorem decodeFrameText_base64Encode (h : decodeFrameWithFlags frame = .ok decoded) :
    decodeFrameText (base64Encode frame) = .ok frame := by
  obtain ⟨hmin, -⟩ := length_of_decodeFrameWithFlags h
  rw [headerSize] at hmin
  have hlength := length_base64Encode frame
  have htext : ¬(base64Encode frame = [] ∨ ¬(base64Encode frame).all PyChar.isBase64) := by
    rw [← List.length_eq_zero_iff, not_or, not_not]
    exact ⟨by omega, all_isBase64_base64Encode frame⟩
  refine bind_eq_ok.mpr ⟨(), raiseIf_of_not htext _,
    bind_eq_ok.mpr ⟨(), raiseIf_of_not (by omega) _, ?_⟩⟩
  dsimp only
  rw [base64Decode_base64Encode, h]
  rfl

theorem fragmentFrame_ok (hframe : decodeFrameWithFlags frame = .ok decoded)
    (htransaction : Profile.q1.ValidTransaction transactionId) :
    ∃ fragments, fragmentFrame frame transactionId = .ok fragments ∧
      Fragmentation .q1 frame transactionId fragments := by
  obtain ⟨value, hvalue, -⟩ := htransaction
  obtain ⟨hmin, hmax⟩ := length_of_decodeFrameWithFlags hframe
  rw [headerSize] at hmin
  rw [maxFrameSize, headerSize, maxPayloadSize] at hmax
  obtain ⟨pieces, hpieces⟩ : ∃ pieces, chunks dataChunkSize (base64Encode frame) = pieces :=
    ⟨_, rfl⟩
  have hlength : pieces.length = ((4 * frame.length + 2) / 3 + 48 - 1) / 48 := by
    rw [← hpieces, length_chunks, length_base64Encode, dataChunkSize]
  have hcount : ¬(pieces = [] ∨ maxFragments < pieces.length) := by
    rw [← List.length_eq_zero_iff, hlength, maxFragments]
    omega
  refine ⟨pieces.zipIdx.map fun p => ⟨transactionId, p.2, pieces.length, p.1, none, 1, none⟩,
    bind_eq_ok.mpr ⟨value, hvalue, bind_eq_ok.mpr ⟨base64Encode frame,
      bind_eq_ok.mpr ⟨(), checkFrame_ok hframe, rfl⟩, ?_⟩⟩, ?_⟩
  · rw [hpieces]
    exact bind_eq_ok.mpr ⟨(), raiseIf_of_not hcount _, rfl⟩
  rw [not_or, Nat.not_lt] at hcount
  refine .of_pieces (fun piece index => ⟨transactionId, index, pieces.length, piece, none, 1,
    none⟩) .text
    hcount.1 (fun _ _ => ⟨rfl, rfl, rfl, rfl, rfl⟩) (fun piece hpiece index hindex => ?_) ?_
  · obtain ⟨hne, hlen, hmem⟩ := mem_chunks (by decide) (hpieces ▸ hpiece)
    refine parseFragment_bodyQ1 hvalue (List.all_eq_true.mpr fun c hc => ?_) hne hlen hindex
      hcount.2
    exact List.all_eq_true.mp (all_isBase64_base64Encode frame) c (hmem c hc)
  · intro entry hversion htotal hparts
    have hmap : (List.range (pieces.map Part.text).length).mapM entry.partAt =
        .ok (pieces.map Part.text) := by
      refine mapM_range_partAt fun i hi => ?_
      rw [List.getElem_map]
      exact hparts i (by rwa [List.length_map] at hi)
    rw [List.length_map] at hmap
    rw [Assembly.frame, if_neg (by rw [hversion]; decide), htotal, hmap]
    show decodeFrameText ((pieces.map Part.text).flatMap _) = .ok frame
    rw [List.flatMap_map]
    show decodeFrameText (pieces.flatMap id) = .ok frame
    rw [List.flatMap_id, ← hpieces, flatten_chunks (by decide), decodeFrameText_base64Encode hframe]

theorem fragmentFrameV2_ok (hframe : decodeFrameWithFlags frame = .ok decoded)
    (htransaction : Profile.q2.ValidTransaction transactionId) :
    ∃ fragments, fragmentFrameV2 frame transactionId = .ok fragments ∧
      Fragmentation .q2 frame transactionId fragments := by
  obtain ⟨value, hvalue, hbyte⟩ := htransaction
  obtain ⟨hmin, hmax⟩ := length_of_decodeFrameWithFlags hframe
  rw [headerSize] at hmin
  rw [maxFrameSize, headerSize, maxPayloadSize] at hmax
  obtain ⟨pieces, hpieces⟩ : ∃ pieces, chunks v2DataChunkSize frame = pieces := ⟨_, rfl⟩
  have hlength : pieces.length = (frame.length + 50 - 1) / 50 := by
    rw [← hpieces, length_chunks, v2DataChunkSize]
  have hcount : ¬(pieces = [] ∨ maxFragments < pieces.length) := by
    rw [← List.length_eq_zero_iff, hlength, maxFragments]
    omega
  have hcount' := hcount
  rw [not_or, Nat.not_lt] at hcount'
  obtain ⟨fragments, hfragments⟩ : ∃ fragments : List APRSFragment,
    fragments = pieces.zipIdx.map fun p =>
    ⟨transactionId, p.2, pieces.length, base91Encode p.1, none, 2, some p.1⟩ := ⟨_, rfl⟩
  have hfragmentation : Fragmentation .q2 frame transactionId fragments := by
    rw [hfragments]
    refine .of_pieces (fun piece index =>
      ⟨transactionId, index, pieces.length, base91Encode piece, none, 2, some piece⟩) .raw
      hcount'.1 (fun _ _ => ⟨rfl, rfl, rfl, rfl, rfl⟩) (fun piece hpiece index hindex => ?_) ?_
    · obtain ⟨hne, hlen, -⟩ := mem_chunks (by decide) (hpieces ▸ hpiece)
      exact parseFragment_bodyQ2 hvalue hbyte hne hlen hindex hcount'.2
    · intro entry hversion htotal hparts
      have hmap : (List.range pieces.length).mapM (fun index => do (← entry.partAt index).bytes) =
          .ok pieces := by
        refine mapM_range_partAt fun i hi => ?_
        rw [hparts i hi]
        rfl
      rw [Assembly.frame, if_pos (show entry.version = 2 from hversion), htotal, hmap,
        ok_bind]
      dsimp only
      rw [← hpieces, flatten_chunks (by decide), hframe]
      rfl
  obtain ⟨bodies, -, hbodies⟩ := exists_mapM fun fragment hfragment =>
    (hfragmentation.body fragment hfragment).imp fun _ => And.left
  refine ⟨fragments, bind_eq_ok.mpr ⟨_, (transactionByte_eq hvalue hbyte).1, bind_eq_ok.mpr ⟨(),
    checkFrame_ok hframe, ?_⟩⟩, hfragmentation⟩
  rw [hpieces]
  refine bind_eq_ok.mpr ⟨(), raiseIf_of_not hcount _, ?_⟩
  dsimp only
  rw [hfragments] at hbodies ⊢
  exact bind_eq_ok.mpr ⟨bodies, hbodies, rfl⟩

/-- Every frame is cut into fragments, under both profiles and for every transaction of the
profile. -/
theorem Profile.fragmentFrame_ok (profile : Profile)
    (hframe : decodeFrameWithFlags frame = .ok decoded)
    (htransaction : profile.ValidTransaction transactionId) :
    ∃ fragments, profile.fragmentFrame frame transactionId = .ok fragments ∧
      Fragmentation profile frame transactionId fragments := by
  cases profile with
  | q1 => exact OpenQSP.fragmentFrame_ok hframe htransaction
  | q2 => exact fragmentFrameV2_ok hframe htransaction

end Frame

end OpenQSP
