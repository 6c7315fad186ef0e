import OpenQSP.Protocol.Fields

/-!
# What the decoder raises

`handle_frame` catches two classes of exceptions and puts the text of what it caught into the detail
of an `ERROR` frame, which is a text field with rules of its own. So it matters that the decoder
raises nothing else, and that its texts are plain: whatever a frame contains, the exception about it
is one that is caught, and its text is ASCII without NUL.

## Main definitions

* `AsciiText`, `Refusal`

## Main results

* `decodeFrame_raisesRefusal`
* `AsciiText.validText` — the text of a refusal can be the detail of an `ERROR`
-/

namespace OpenQSP

open Py

/-! ### Texts -/

/-- ASCII without NUL. -/
def AsciiText (s : String) : Prop := ∀ c ∈ s.toList, 0 < c.toNat ∧ c.toNat < 128

instance (s : String) : Decidable (AsciiText s) := List.decidableBAll _ s.toList

theorem AsciiText.ofList {l : List Char} (h :
    l.all (fun c => 0 < c.toNat && c.toNat < 128) = true) :
    AsciiText (String.ofList l) := by
  intro c hc
  rw [String.toList_ofList] at hc
  simpa using List.all_eq_true.mp h c hc

theorem AsciiText.append {s s' : String} (h : AsciiText s) (h' : AsciiText s') :
    AsciiText (s ++ s') := by
  intro c hc
  rw [String.toList_append, List.mem_append] at hc
  exact hc.elim (h c) (h' c)

theorem asciiText_toString (n : ℕ) : AsciiText (toString n) := by
  intro c hc
  have hdigit : c.isDigit :=
    Nat.isDigit_of_mem_toDigits (b := 10) (n := n) (by decide) (by decide) (by simpa using hc)
  obtain ⟨hmin, hmax⟩ := Char.isDigit_iff_toNat.mp hdigit
  exact ⟨lt_of_lt_of_le (by decide) hmin, lt_of_le_of_lt hmax (by decide)⟩

theorem asciiText_hexByte (byte : UInt8) : AsciiText (hexByte byte) := by
  have hdigit : ∀ n < 16, 0 < (hexDigit n).toNat ∧ (hexDigit n).toNat < 128 := by decide
  have hbyte : byte.toNat < 256 := byte.toNat_lt
  intro c hc
  rw [hexByte, String.toList_ofList] at hc
  simp only [List.mem_cons, List.not_mem_nil, or_false] at hc
  rcases hc with rfl | rfl | rfl | rfl
  · decide
  · decide
  · exact hdigit _ (by omega)
  · exact hdigit _ (by omega)

theorem asciiText_lengthText {field : String} (h : AsciiText field) (minimum maximum : ℕ) :
    AsciiText (lengthText field minimum maximum) :=
  ((((h.append (.ofList rfl)).append (asciiText_toString _)).append (.ofList rfl)).append
    (asciiText_toString _)).append (.ofList rfl)

theorem asciiText_retrievalText : AsciiText retrievalText :=
  ((AsciiText.append (.ofList rfl) (asciiText_toString _)).append (.ofList rfl)).append
    (asciiText_toString _)

/-- The first characters of a plain text are a text field. -/
theorem AsciiText.validText {s : String} (h : AsciiText s) (n : ℕ) :
    ValidText 0 n ((str s).take n) := by
  have hchars : ∀ c ∈ s.toList.take n, 0 < c.toNat ∧ c.toNat < 128 :=
    fun c hc => h c (List.mem_of_mem_take hc)
  have hbyte : ∀ c : Char, c.toNat < 128 → (UInt8.ofNat c.toNat).toNat = c.toNat :=
    fun c hc => Nat.mod_eq_of_lt (by omega)
  set data : Bytes := (s.toList.take n).map fun c => UInt8.ofNat c.toNat with hdata
  have htext : (str s).take n = ofAscii data := by
    rw [str, ← List.map_take, ofAscii, hdata, List.map_map]
    refine List.map_congr_left fun c hc => ?_
    rw [Function.comp_apply, hbyte c (hchars c hc).2, Char.ofNat_toNat]
  have hmem : ∀ b ∈ data, b ≠ 0 ∧ b < 128 := by
    intro b hb
    obtain ⟨c, hc, rfl⟩ := List.mem_map.mp hb
    obtain ⟨hpos, hlt⟩ := hchars c hc
    constructor
    · intro hzero
      have hnat := congrArg UInt8.toNat hzero
      rw [hbyte c hlt] at hnat
      exact absurd hnat hpos.ne'
    · rw [UInt8.lt_iff_toNat_lt, hbyte c hlt]
      exact hlt
  refine ⟨data, ?_, fun hzero => (hmem 0 hzero).1 rfl, Nat.zero_le _, ?_⟩
  · rw [htext]
    exact encodeUtf8_ofAscii fun b hb => (hmem b hb).2
  · rw [hdata, List.length_map]
    exact List.length_take_le _ _

/-! ### Refusals -/

/-- An exception that `handle_frame` catches, with a plain text. -/
structure Refusal (e : PyError) : Prop where
  caught : e.isA .protocolDecodeError ∨ e.isA .invalidFieldError
  ascii : AsciiText e.text

theorem Refusal.invalidField {text : String} (h : AsciiText text) : Refusal (.invalidField text) :=
  ⟨.inr rfl, h⟩

theorem Refusal.payloadLength {text : String} (h : AsciiText text) :
    Refusal (.payloadLength text) :=
  ⟨.inl rfl, h⟩

/-! ### Readers and field rules -/

section Fields

open Raises

variable {field : String}

theorem Reader.take_raisesRefusal (h : AsciiText field) (size : ℕ) (rest : Bytes) :
    Raises Refusal (Reader.take size field rest) :=
  ite (error (.payloadLength (AsciiText.append (.ofList rfl) h))) (ok _)

theorem Reader.u8_raisesRefusal (h : AsciiText field) (rest : Bytes) :
    Raises Refusal (Reader.u8 field rest) := (take_raisesRefusal h 1 rest).bind fun _ => ok _

theorem Reader.u32_raisesRefusal (h : AsciiText field) (rest : Bytes) :
    Raises Refusal (Reader.u32 field rest) := (take_raisesRefusal h 4 rest).bind fun _ => ok _

theorem Reader.prefixed_raisesRefusal (h : AsciiText field) (rest : Bytes) :
    Raises Refusal (Reader.prefixed field rest) :=
  (u8_raisesRefusal (h.append (.ofList rfl)) rest).bind fun _ => take_raisesRefusal h _ _

theorem Reader.finish_raisesRefusal (rest : Bytes) : Raises Refusal (Reader.finish rest) :=
  ite (ok ()) (error (.payloadLength (.ofList rfl)))

theorem requireExact_raisesRefusal (h : AsciiText field) (payload : Bytes) (size : ℕ) :
    Raises Refusal (requireExact payload size field) :=
  ite (ok ()) (error (.payloadLength
    (((h.append (.ofList rfl)).append (asciiText_toString _)).append (.ofList rfl))))

theorem integer_raisesRefusal (h : AsciiText field) (value : ℤ) (bits : ℕ) (nonzero : Bool) :
    Raises Refusal (integer value bits field nonzero) := by
  refine ite (ok _) (error (.invalidField ?_))
  refine ((((h.append (.ofList rfl)).append ?_).append (.ofList rfl)).append
    (asciiText_toString _)).append (.ofList rfl)
  cases nonzero
  · exact .ofList rfl
  · exact .ofList rfl

theorem decodeText_raisesRefusal (h : AsciiText field) (data : Bytes) (minimum maximum : ℕ) :
    Raises Refusal (decodeText data field minimum maximum) := by
  refine ite (error (.invalidField (asciiText_lengthText h _ _)))
    (ite (error (.invalidField (h.append (.ofList rfl)))) ?_)
  split
  · exact ok _
  · exact error (.invalidField (h.append (.ofList rfl)))

theorem textBytes_raisesRefusal (h : AsciiText field) (value : Str) (minimum maximum : ℕ) :
    Raises Refusal (textBytes value field minimum maximum) := by
  rw [textBytes]
  split
  · exact error (.invalidField (h.append (.ofList rfl)))
  · refine ite (error (.invalidField (h.append (.ofList rfl)))) (ite (error ⟨.inr rfl, ?_⟩)
      (ite (error (.invalidField ?_)) (ok _)))
    · exact asciiText_lengthText h _ _
    · exact asciiText_lengthText h _ _

theorem callsignBytes_raisesRefusal (h : AsciiText field) (value : Str) :
    Raises Refusal (callsignBytes value field) :=
  (textBytes_raisesRefusal h value _ _).bind fun _ =>
    (check (.invalidField (h.append (.ofList rfl)))).bind fun _ =>
      (check (.invalidField (h.append (.ofList rfl)))).bind fun _ => ok _

theorem decodeCallsign_raisesRefusal (h : AsciiText field) (data : Bytes) :
    Raises Refusal (decodeCallsign data field) := by
  rw [decodeCallsign]
  split
  · exact error (.invalidField (h.append (.ofList rfl)))
  · exact (callsignBytes_raisesRefusal h _).bind fun _ => ok _

end Fields

/-! ### Payloads -/

section Payloads

open Raises Reader

theorem decodeRetrieval_raisesRefusal {name : String} (h : AsciiText name) (payload : Bytes) :
    Raises Refusal (decodeRetrieval payload name) :=
  (requireExact_raisesRefusal h payload 5).bind fun _ =>
    (check (.invalidField asciiText_retrievalText)).bind fun _ => ok _

/-- Every payload decoder but that of the point lookup, which has frames of its own. -/
theorem decodePayload_raisesRefusal {op : Operation} (hop : op ≠ .getMessage) (payload : Bytes) :
    Raises Refusal (decodePayload op payload) := by
  cases op with
  | getMessage => exact absurd rfl hop
  | sendMessage =>
    refine (u32_raisesRefusal (.ofList rfl) _).bind fun _ =>
      (prefixed_raisesRefusal (.ofList rfl) _).bind fun _ =>
      (decodeCallsign_raisesRefusal (.ofList rfl) _).bind fun _ =>
      (prefixed_raisesRefusal (.ofList rfl) _).bind fun _ =>
      (decodeText_raisesRefusal (.ofList rfl) _ _ _).bind fun _ =>
      (finish_raisesRefusal _).bind fun _ =>
      (integer_raisesRefusal (.ofList rfl) _ _ _).bind fun _ => ok _
  | getNewMessages => exact (decodeRetrieval_raisesRefusal (.ofList rfl) _).bind fun _ => ok _
  | getNewBulletins => exact (decodeRetrieval_raisesRefusal (.ofList rfl) _).bind fun _ => ok _
  | getBulletin =>
    exact (requireExact_raisesRefusal (.ofList rfl) _ _).bind fun _ =>
      (integer_raisesRefusal (.ofList rfl) _ _ _).bind fun _ => ok _
  | getCapabilities => exact (requireExact_raisesRefusal (.ofList rfl) _ _).bind fun _ => ok _
  | capabilities => exact (requireExact_raisesRefusal (.ofList rfl) _ _).bind fun _ => ok _
  | stored => exact (requireExact_raisesRefusal (.ofList rfl) _ _).bind fun _ => ok _
  | message =>
    refine (u32_raisesRefusal (.ofList rfl) _).bind fun _ =>
      (u32_raisesRefusal (.ofList rfl) _).bind fun _ =>
      (u32_raisesRefusal (.ofList rfl) _).bind fun _ =>
      (prefixed_raisesRefusal (.ofList rfl) _).bind fun _ =>
      (decodeCallsign_raisesRefusal (.ofList rfl) _).bind fun _ =>
      (prefixed_raisesRefusal (.ofList rfl) _).bind fun _ =>
      (decodeCallsign_raisesRefusal (.ofList rfl) _).bind fun _ =>
      (prefixed_raisesRefusal (.ofList rfl) _).bind fun _ =>
      (decodeText_raisesRefusal (.ofList rfl) _ _ _).bind fun _ =>
      (finish_raisesRefusal _).bind fun _ =>
      (integer_raisesRefusal (.ofList rfl) _ _ _).bind fun _ =>
      (integer_raisesRefusal (.ofList rfl) _ _ _).bind fun _ =>
      (integer_raisesRefusal (.ofList rfl) _ _ _).bind fun _ => ok _
  | bulletinHeader =>
    refine (u32_raisesRefusal (.ofList rfl) _).bind fun _ =>
      (u32_raisesRefusal (.ofList rfl) _).bind fun _ =>
      (prefixed_raisesRefusal (.ofList rfl) _).bind fun _ =>
      (decodeCallsign_raisesRefusal (.ofList rfl) _).bind fun _ =>
      (prefixed_raisesRefusal (.ofList rfl) _).bind fun _ =>
      (decodeText_raisesRefusal (.ofList rfl) _ _ _).bind fun _ =>
      (finish_raisesRefusal _).bind fun _ =>
      (integer_raisesRefusal (.ofList rfl) _ _ _).bind fun _ =>
      (integer_raisesRefusal (.ofList rfl) _ _ _).bind fun _ => ok _
  | bulletin =>
    refine (u32_raisesRefusal (.ofList rfl) _).bind fun _ =>
      (u32_raisesRefusal (.ofList rfl) _).bind fun _ =>
      (prefixed_raisesRefusal (.ofList rfl) _).bind fun _ =>
      (decodeCallsign_raisesRefusal (.ofList rfl) _).bind fun _ =>
      (prefixed_raisesRefusal (.ofList rfl) _).bind fun _ =>
      (decodeText_raisesRefusal (.ofList rfl) _ _ _).bind fun _ =>
      (prefixed_raisesRefusal (.ofList rfl) _).bind fun _ =>
      (decodeText_raisesRefusal (.ofList rfl) _ _ _).bind fun _ =>
      (finish_raisesRefusal _).bind fun _ =>
      (integer_raisesRefusal (.ofList rfl) _ _ _).bind fun _ =>
      (integer_raisesRefusal (.ofList rfl) _ _ _).bind fun _ => ok _
  | «end» =>
    refine (requireExact_raisesRefusal (.ofList rfl) _ _).bind fun _ => ?_
    split
    · exact error (.invalidField (.ofList rfl))
    · exact (check (.invalidField (.ofList rfl))).bind fun _ =>
        (check (.invalidField (.ofList rfl))).bind fun _ => ok _
  | error =>
    refine (take_raisesRefusal (.ofList rfl) _ _).bind fun _ =>
      (take_raisesRefusal (.ofList rfl) _ _).bind fun _ =>
      (prefixed_raisesRefusal (.ofList rfl) _).bind fun _ =>
      (decodeText_raisesRefusal (.ofList rfl) _ _ _).bind fun _ =>
      (finish_raisesRefusal _).bind fun _ => Raises.bind ?_ fun _ => ?_
    · refine ite (ok _) ?_
      split
      · exact ok _
      · exact Raises.error (.invalidField (AsciiText.append (.ofList rfl) (asciiText_hexByte _)))
    · split
      · exact ok _
      · exact Raises.error (.invalidField (AsciiText.append (.ofList rfl) (asciiText_hexByte _)))

theorem decodeGetMessageFrame_raisesRefusal (data : Bytes) :
    Raises Refusal (decodeGetMessageFrame data) := by
  refine (check (.payloadLength (.ofList rfl))).bind fun _ =>
    (check (.invalidField (.ofList rfl))).bind fun _ =>
    (check (.payloadLength (.ofList rfl))).bind fun _ =>
    (check (.payloadLength (.ofList rfl))).bind fun _ =>
    (check (.invalidField (.ofList rfl))).bind fun _ =>
    (check (.payloadLength (.ofList rfl))).bind fun _ => ?_
  split
  · exact error (.invalidField (.ofList rfl))
  · exact (check (.invalidField (.ofList rfl))).bind fun _ =>
      (check (.invalidField (.ofList rfl))).bind fun _ => ok _

theorem decodeHeader_raisesRefusal (data : Bytes) (allow : Bool) :
    Raises Refusal (decodeHeader data allow) := by
  refine (check (.payloadLength (.ofList rfl))).bind fun _ =>
    (check (.payloadLength (.ofList rfl))).bind fun _ =>
    (check ⟨.inl rfl, AsciiText.append (.ofList rfl) (asciiText_hexByte _)⟩).bind fun _ => ?_
  split
  · exact error ⟨.inl rfl, AsciiText.append (.ofList rfl) (asciiText_hexByte _)⟩
  · exact (check (.invalidField (AsciiText.append (.ofList rfl) (asciiText_hexByte _)))).bind
      fun _ =>
      (check (.invalidField (.ofList rfl))).bind fun _ =>
      (check (.payloadLength (((((AsciiText.append (.ofList rfl) (asciiText_toString _)).append
        (.ofList rfl)).append (asciiText_toString _)).append (.ofList rfl))))).bind fun _ => ok _

end Payloads

/-- A header with the operation code of the point lookup selects its codec. -/
theorem isGetMessageFrame_of_decodeHeader {data payload : Bytes} {flags : UInt8} {allow : Bool}
    (h : decodeHeader data allow = .ok (.getMessage, flags, payload)) :
    isGetMessageFrame data = true := by
  simp only [decodeHeader, bind_eq_ok, raiseIf_eq_ok, not_not] at h
  obtain ⟨_, hshort, _, -, _, hversion, h⟩ := h
  split at h
  · cases h
  next operation hoperation =>
  simp only [bind_eq_ok, raiseIf_eq_ok, not_not] at h
  obtain ⟨_, -, _, -, _, -, h⟩ := h
  obtain ⟨rfl, -⟩ := Prod.mk.inj (Except.ok.inj h)
  have hcode := Operation.code_of_ofCode hoperation
  rw [headerSize] at hshort
  simp only [isGetMessageFrame, Bool.and_eq_true, decide_eq_true_eq]
  exact ⟨⟨by omega, hversion⟩, hcode.symm⟩

/-- Whatever the bytes are, what the request decoder raises is a refusal. -/
theorem decodeFrame_raisesRefusal (data : Bytes) : Raises Refusal (decodeFrame data) := by
  by_cases hselect : isGetMessageFrame data = true
  · rw [decodeFrame, if_pos hselect]
    exact decodeGetMessageFrame_raisesRefusal data
  · rw [decodeFrame, if_neg hselect]
    intro e he
    rcases hheader : decodeHeader data false with e' | ⟨op, flags, payload⟩
    · rw [hheader] at he
      obtain rfl := Except.error.inj he
      exact decodeHeader_raisesRefusal data false _ hheader
    · rw [hheader] at he
      refine decodePayload_raisesRefusal ?_ payload e he
      rintro rfl
      exact hselect (isGetMessageFrame_of_decodeHeader hheader)

end OpenQSP
