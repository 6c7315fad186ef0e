import OpenQSP.Aprs.Fragments
import OpenQSP.Aprs.Progress

/-!
# Controls

A control names a transaction in one byte, and is written in the same alphabet as a fragment. Each
of the three kinds reads back as what it was made from, and as nothing else: the two letters in
front keep them apart from each other and from fragments.

## Main definitions

* `parseStored`

## Main results

* `parseBurstControl_ack`, `parseStored_stored`, `parseBurstControl_missing`
* `encodeMissing_iff` — what can be asked for
* **`controls_roundTrip`**
-/

namespace OpenQSP

open Py

/-- `parse_stored` -/
def parseStored (body : Str) : Option Str :=
  if body.take 2 = str "S2" then
    match base91Decode (body.drop 2) with
    | .ok [transaction] => some (transactionName transaction)
    | _ => none
  else none

variable {transactionId body : Str} {missing : Finset ℕ}

/-- The byte of a transaction is its name again. -/
theorem transactionName_of_byte {byte : UInt8} (h : transactionByte transactionId = .ok byte) :
    transactionName byte = transactionId := by
  obtain ⟨value, hvalue, h⟩ := bind_eq_ok.mp h
  obtain ⟨_, hle, h⟩ := bind_eq_ok.mp h
  have hle : value ≤ 0xFF := not_lt.mp (raiseIf_eq_ok.mp hle)
  have htoNat : (UInt8.ofNat value).toNat = value := Nat.mod_eq_of_lt (Nat.lt_succ_of_le hle)
  rw [transactionName, ← Except.ok.inj h, htoNat, base36Digits_of_parseBase36 hvalue]

/-- A control consists of two letters and the bytes of its transaction and its payload. -/
theorem encodeControl_eq_ok {kind : String} {payload : Bytes}
    (h : encodeControl kind transactionId payload = .ok body) : ∃ byte,
      transactionName byte = transactionId ∧ body = str kind ++ base91Encode (byte :: payload) := by
  obtain ⟨byte, hbyte, h⟩ := bind_eq_ok.mp h
  exact ⟨byte, transactionName_of_byte hbyte, (Except.ok.inj h).symm⟩

/-- The two letters in front come off again. -/
theorem split_control (kind : String) (hkind : (str kind).length = 2) (text : Str) :
    (str kind ++ text).take 2 = str kind ∧ (str kind ++ text).drop 2 = text := by
  rw [← hkind, List.take_left, List.drop_left]
  exact ⟨rfl, rfl⟩

theorem parseBurstControl_ack (h : encodeBurstAck transactionId = .ok body) :
    parseBurstControl body = some (.ack transactionId) := by
  obtain ⟨byte, rfl, rfl⟩ := encodeControl_eq_ok h
  have hdecode : base91Decode (base91Encode [byte]) = .ok [byte] :=
    base91Decode_base91Encode (List.cons_ne_nil _ _)
  obtain ⟨htake, hdrop⟩ := split_control "A2" rfl (base91Encode [byte])
  rw [parseBurstControl, if_pos htake, hdrop, hdecode]

theorem parseStored_stored (h : encodeStored transactionId = .ok body) :
    parseStored body = some transactionId := by
  obtain ⟨byte, rfl, rfl⟩ := encodeControl_eq_ok h
  have hdecode : base91Decode (base91Encode [byte]) = .ok [byte] :=
    base91Decode_base91Encode (List.cons_ne_nil _ _)
  obtain ⟨htake, hdrop⟩ := split_control "S2" rfl (base91Encode [byte])
  rw [parseStored, if_pos htake, hdrop, hdecode]

/-! ### The map of the missing fragments -/

theorem maskOf_lt {indices : List ℕ} (h : ∀ index ∈ indices, index < 16) :
    indices.foldl (fun mask index => mask ||| 1 <<< index) 0 < 256 ^ 2 := by
  refine Nat.lt_pow_two_of_testBit (n := 16) _ fun i hi => ?_
  rw [testBit_maskOf, Nat.zero_testBit, Bool.false_or, decide_eq_false_iff_not]
  exact fun hmem => absurd (h i hmem) (not_lt.mpr hi)

/-- The bits of the map name the fragments it was made from. -/
theorem maskIndices_maskOf (hlt : ∀ index ∈ missing, index < 16) :
    maskIndices ((sorted missing).foldl (fun mask index => mask ||| 1 <<< index) 0) = missing := by
  ext index
  rw [maskIndices, Finset.mem_filter, Finset.mem_range, testBit_maskOf, Nat.zero_testBit,
    Bool.false_or, decide_eq_true_eq, mem_sorted]
  exact ⟨And.right, fun hmem => ⟨hlt index hmem, hmem⟩⟩

/-- A request names at least one fragment, and none beyond the map. -/
theorem encodeMissing_eq_ok (h : encodeMissing transactionId missing = .ok body) :
    missing ≠ ∅ ∧ (∀ index ∈ missing, index < 16) ∧
      encodeControl "N2" transactionId (toBigEndian 2 ((sorted missing).foldl
        (fun mask index => mask ||| 1 <<< index) 0)) = .ok body := by
  obtain ⟨_, hbounds, h⟩ := bind_eq_ok.mp h
  obtain ⟨_, hmask, h⟩ := bind_eq_ok.mp h
  have hbounds := raiseIf_eq_ok.mp hbounds
  push Not at hbounds
  refine ⟨fun hempty => raiseIf_eq_ok.mp hmask ?_, hbounds, h⟩
  rw [hempty]
  rfl

/-- Fragments can be asked for exactly if one byte names their transaction, there is one of them,
and all of them are in the map. -/
theorem encodeMissing_iff : (∃ body, encodeMissing transactionId missing = .ok body) ↔
    missing ≠ ∅ ∧ (∀ index ∈ missing, index < 16) ∧
      ∃ byte, transactionByte transactionId = .ok byte := by
  constructor
  · rintro ⟨body, h⟩
    obtain ⟨hne, hlt, -⟩ := encodeMissing_eq_ok h
    exact ⟨hne, hlt, (encodeMissing_returns_iff hne hlt).mp ⟨body, h⟩⟩
  · rintro ⟨hne, hlt, hbyte⟩
    exact (encodeMissing_returns_iff hne hlt).mpr hbyte

theorem parseBurstControl_missing (h : encodeMissing transactionId missing = .ok body) :
    parseBurstControl body = some (.missing transactionId missing) := by
  obtain ⟨hne, hlt, h⟩ := encodeMissing_eq_ok h
  obtain ⟨byte, hname, rfl⟩ := encodeControl_eq_ok h
  set mask := (sorted missing).foldl (fun mask index => mask ||| 1 <<< index) 0 with hmask
  obtain ⟨high, low, hbytes⟩ : ∃ high low, toBigEndian 2 mask = [high, low] :=
    List.length_eq_two.mp (length_toBigEndian 2 mask)
  have hvalue : fromBigEndian [high, low] = mask :=
    hbytes ▸ fromBigEndian_toBigEndian (maskOf_lt fun index hindex =>
      hlt index (mem_sorted.mp hindex))
  have hdecode : base91Decode (base91Encode [byte, high, low]) = .ok [byte, high, low] :=
    base91Decode_base91Encode (List.cons_ne_nil _ _)
  obtain ⟨htake, hdrop⟩ := split_control "N2" rfl (base91Encode [byte, high, low])
  have hne' : str "N2" ≠ str "A2" := by decide
  rw [hbytes, parseBurstControl, htake, if_neg hne', if_pos rfl, hdrop, hdecode]
  show missingControl (transactionName byte) (fromBigEndian [high, low]) = _
  rw [hvalue, missingControl, if_neg (mask_ne_zero hne), hname, hmask, maskIndices_maskOf hlt]

/-! ### Telling them apart -/

/-- The letters in front decide what a body can be read as. -/
theorem parseBurstControl_of_take (ha : body.take 2 ≠ str "A2") (hn : body.take 2 ≠ str "N2")
    (hq : body.take 2 ≠ str "Q1") : parseBurstControl body = none := by
  have hshort : ∀ {s : Str}, body.take 4 = s → s.take 2 = str "Q1" → False := by
    rintro s rfl hs
    rw [List.take_take] at hs
    exact hq hs
  cases hcontrol : parseBurstControl body with
  | none => rfl
  | some control =>
    rcases parseBurstControl_take hcontrol with h | h | h | h
    · exact absurd h ha
    · exact absurd h hn
    · exact (hshort h rfl).elim
    · exact (hshort h rfl).elim

theorem parseStored_of_take (h : body.take 2 ≠ str "S2") : parseStored body = none := by
  rw [parseStored, if_neg h]

theorem parseFragment_of_take (hq1 : body.take 2 ≠ str "Q1") (hq2 : body.take 2 ≠ str "Q2")
    (fragment : APRSFragment) : parseFragment body ≠ .ok fragment := by
  intro h
  rcases parseFragment_take h with htake | htake
  · exact hq2 htake
  · have hshort := congrArg (List.take 2) htake
    rw [List.take_take] at hshort
    exact hq1 hshort

/-- How each reader reads a body that is not a fragment. -/
structure ReadsAs (body : Str) (control : Option BurstControl) (stored : Option Str) : Prop where
  control : parseBurstControl body = control
  stored : parseStored body = stored
  noFragment : ∀ fragment, parseFragment body ≠ .ok fragment

theorem take_of_encodeControl {kind : String} {payload : Bytes} (hkind : (str kind).length = 2)
    (h : encodeControl kind transactionId payload = .ok body) : body.take 2 = str kind := by
  obtain ⟨byte, -, rfl⟩ := encodeControl_eq_ok h
  exact (split_control _ hkind _).1

/-- **Every control reads back as what it was made from, and as nothing else.** It exists exactly if
one byte names the transaction and, where it asks for fragments, these are in the map. -/
theorem controls_roundTrip (transactionId : Str) (missing : Finset ℕ) :
    (∀ body, encodeBurstAck transactionId = .ok body →
      ReadsAs body (some (.ack transactionId)) none) ∧
    (∀ body, encodeStored transactionId = .ok body → ReadsAs body none (some transactionId)) ∧
    (∀ body, encodeMissing transactionId missing = .ok body →
      ReadsAs body (some (.missing transactionId missing)) none) ∧
    ((∃ body, encodeBurstAck transactionId = .ok body) ↔
      ∃ byte, transactionByte transactionId = .ok byte) ∧
    ((∃ body, encodeStored transactionId = .ok body) ↔
      ∃ byte, transactionByte transactionId = .ok byte) ∧
    ((∃ body, encodeMissing transactionId missing = .ok body) ↔
      missing ≠ ∅ ∧ (∀ index ∈ missing, index < 16) ∧
        ∃ byte, transactionByte transactionId = .ok byte) := by
  have hreturns : ∀ kind : String, (∃ body, encodeControl kind transactionId [] = .ok body) ↔
      ∃ byte, transactionByte transactionId = .ok byte := by
    intro kind
    constructor
    · rintro ⟨body, h⟩
      obtain ⟨byte, hbyte, -⟩ := bind_eq_ok.mp h
      exact ⟨byte, hbyte⟩
    · rintro ⟨byte, hbyte⟩
      exact ⟨_, by rw [encodeControl, hbyte, Py.ok_bind]; rfl⟩
  refine ⟨fun body h => ?_, fun body h => ?_, fun body h => ?_, hreturns "A2", hreturns "S2",
    encodeMissing_iff⟩
  · have htake := take_of_encodeControl rfl h
    refine ⟨parseBurstControl_ack h, parseStored_of_take ?_, parseFragment_of_take ?_ ?_⟩
    all_goals
      rw [htake]
      decide
  · have htake := take_of_encodeControl rfl h
    refine ⟨parseBurstControl_of_take ?_ ?_ ?_, parseStored_stored h, parseFragment_of_take ?_ ?_⟩
    all_goals
      rw [htake]
      decide
  · have htake := take_of_encodeControl rfl (encodeMissing_eq_ok h).2.2
    refine ⟨parseBurstControl_missing h, parseStored_of_take ?_, parseFragment_of_take ?_ ?_⟩
    all_goals
      rw [htake]
      decide

end OpenQSP
