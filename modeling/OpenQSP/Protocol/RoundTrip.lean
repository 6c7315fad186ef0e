import OpenQSP.Protocol.Codec

/-!
# Encoding and decoding are inverse

Whatever `encodeFrame` produces, `decodeFrameWithFlags` reads back, and `decodeFrame` reads back
when no flag is set.

The proof follows the shape of the codec: each field writer has a lemma saying what it wrote, each
reader a lemma saying that it reads exactly that in front of anything, and a payload is a sequence
of such pairs.

## Main results

* `decodePayload_of_encodePayload` — payload by payload
* `decodeGetMessageFrame_of_encode` — the point lookup
* `decodeFrameWithFlags_of_encodeFrame`, `decodeFrame_of_encodeFrame`
* **`codec_roundTrip`** — the same for any object and flag, with the size of the frame
-/

namespace OpenQSP

open Py

/-! ### Readers in front of what was written -/

theorem Reader.take_append {data rest : Bytes} {size : ℕ} (h : data.length = size)
    (field : String) : Reader.take size field (data ++ rest) = .ok (data, rest) := by
  subst h
  rw [Reader.take, if_neg (by simp), List.take_left, List.drop_left]

theorem Reader.u32_append {n : ℕ} (h : n < 2 ^ 32) (field : String) (rest : Bytes) :
    Reader.u32 field (toBigEndian 4 n ++ rest) = .ok (n, rest) := by
  rw [Reader.u32, Reader.take_append (length_toBigEndian 4 n)]
  simp [fromBigEndian_toBigEndian (w := 4) (by norm_num; omega)]

theorem Reader.u8_append {n : ℕ} (h : n < 2 ^ 8) (field : String) (rest : Bytes) :
    Reader.u8 field (toBigEndian 1 n ++ rest) = .ok (n, rest) := by
  rw [Reader.u8, Reader.take_append (length_toBigEndian 1 n)]
  simp [fromBigEndian_toBigEndian (w := 1) (by norm_num; omega)]

@[simp] theorem Reader.finish_nil : Reader.finish [] = .ok () := rfl

/-! ### What a writer wrote -/

theorem integer_eq_ok {value : ℤ} {bits n : ℕ} {field : String} {nonzero : Bool}
    (h : integer value bits field nonzero = .ok n) :
    value = n ∧ n < 2 ^ bits ∧ (nonzero = true → n ≠ 0) := by
  rw [integer] at h
  split at h
  · rename_i hvalue
    obtain ⟨hpos, hmax, hzero⟩ := hvalue
    obtain rfl := Except.ok.inj h
    have hlt : (value.toNat : ℤ) < 2 ^ bits := by omega
    refine ⟨by omega, by exact_mod_cast hlt, fun hn hz => hzero ⟨hn, by omega⟩⟩
  · cases h

theorem integer_of_eq {value : ℤ} {n bits : ℕ} {field : String} {nonzero : Bool}
    (hvalue : value = n) (h : n < 2 ^ bits) (hn : nonzero = true → n ≠ 0) :
    integer value bits field nonzero = .ok n := by
  subst hvalue
  have hlt : (n : ℤ) < 2 ^ bits := by exact_mod_cast h
  rw [integer, if_pos ⟨by omega, by omega, fun hz => hn hz.1 (by omega)⟩]
  simp

theorem encodeU32_eq_ok {value : ℤ} {field : String} {nonzero : Bool} {data : Bytes}
    (h : encodeU32 value field nonzero = .ok data) :
    ∃ n : ℕ, value = n ∧ n < 2 ^ 32 ∧ (nonzero = true → n ≠ 0) ∧ data = toBigEndian 4 n := by
  obtain ⟨n, hn, hdata⟩ := bind_eq_ok.mp h
  obtain ⟨hvalue, hlt, hnz⟩ := integer_eq_ok hn
  exact ⟨n, hvalue, hlt, hnz, (Except.ok.inj hdata).symm⟩

theorem encodeU8_eq_ok {value : ℤ} {field : String} {nonzero : Bool} {data : Bytes}
    (h : encodeU8 value field nonzero = .ok data) :
    ∃ n : ℕ, value = n ∧ n < 2 ^ 8 ∧ (nonzero = true → n ≠ 0) ∧ data = toBigEndian 1 n := by
  obtain ⟨n, hn, hdata⟩ := bind_eq_ok.mp h
  obtain ⟨hvalue, hlt, hnz⟩ := integer_eq_ok hn
  exact ⟨n, hvalue, hlt, hnz, (Except.ok.inj hdata).symm⟩

theorem prefixBytes_eq_ok {data encoded : Bytes} (h : prefixBytes data = .ok encoded) :
    data.length < 2 ^ 8 ∧ encoded = toBigEndian 1 data.length ++ data := by
  obtain ⟨size, hsize, hencoded⟩ := bind_eq_ok.mp h
  obtain ⟨n, hn, hlt, -, rfl⟩ := encodeU8_eq_ok hsize
  have hlen : data.length = n := by exact_mod_cast hn
  rw [hlen]
  exact ⟨hlt, (Except.ok.inj hencoded).symm⟩

theorem Reader.prefixed_append {data encoded : Bytes} (h : prefixBytes data = .ok encoded)
    (field : String) (rest : Bytes) :
    Reader.prefixed field (encoded ++ rest) = .ok (data, rest) := by
  obtain ⟨hlt, rfl⟩ := prefixBytes_eq_ok h
  rw [Reader.prefixed, List.append_assoc, Reader.u8_append hlt]
  exact Reader.take_append rfl field

theorem textBytes_eq_ok {value : Str} {field : String} {minimum maximum : ℕ} {data : Bytes}
    (h : textBytes value field minimum maximum = .ok data) :
    encodeUtf8 value = some data ∧ 0 ∉ data ∧ minimum ≤ data.length ∧ data.length ≤ maximum := by
  rw [textBytes] at h
  split at h
  · cases h
  · rename_i encoded henc
    split_ifs at h with hnul hmax hmin
    obtain rfl := Except.ok.inj h
    exact ⟨henc, hnul, by omega, by omega⟩

theorem decodeText_of_textBytes {value : Str} {field : String} {minimum maximum : ℕ} {data : Bytes}
    (h : textBytes value field minimum maximum = .ok data) :
    decodeText data field minimum maximum = .ok value := by
  obtain ⟨henc, hnul, hmin, hmax⟩ := textBytes_eq_ok h
  rw [decodeText, if_neg (by simp [hmin, hmax]), if_neg hnul, decodeUtf8_of_encodeUtf8 henc]

theorem callsignBytes_eq_ok {value : Str} {field : String} {data : Bytes}
    (h : callsignBytes value field = .ok data) :
    textBytes value field minCallsignLength maxCallsignLength = .ok data ∧
      (∀ b ∈ data, isDigitByte b = true ∨ isUpperByte b = true) ∧
      data.any isUpperByte = true ∧ data.any isDigitByte = true := by
  obtain ⟨encoded, htext, h⟩ := bind_eq_ok.mp h
  obtain ⟨_, hall, h⟩ := bind_eq_ok.mp h
  obtain ⟨_, hany, h⟩ := bind_eq_ok.mp h
  rw [raiseIf_eq_ok] at hall hany
  obtain rfl := Except.ok.inj h
  refine ⟨htext, fun b hb => ?_, ?_, ?_⟩
  · by_contra hb'
    rw [not_or] at hb'
    exact hall (List.any_eq_true.mpr ⟨b, hb, by simp [hb'.1, hb'.2]⟩)
  · by_contra hu
    exact hany (by simp [Bool.eq_false_iff.mpr hu])
  · by_contra hd
    exact hany (by simp [Bool.eq_false_iff.mpr hd])

theorem textBytes_of_encodeUtf8 {value : Str} {field : String} {minimum maximum : ℕ} {data : Bytes}
    (henc : encodeUtf8 value = some data) (hnul : 0 ∉ data) (hmin : minimum ≤ data.length)
    (hmax : data.length ≤ maximum) : textBytes value field minimum maximum = .ok data := by
  simp only [textBytes, henc]
  rw [if_neg hnul, if_neg (by omega), if_neg (by omega)]

/-- The name of the field matters only to the text of the exception. -/
theorem callsignBytes_field {value : Str} {field : String} {data : Bytes}
    (h : callsignBytes value field = .ok data) (field' : String) :
    callsignBytes value field' = .ok data := by
  obtain ⟨htext, -⟩ := callsignBytes_eq_ok h
  obtain ⟨henc, hnul, hmin, hmax⟩ := textBytes_eq_ok htext
  obtain ⟨encoded, htext', h⟩ := bind_eq_ok.mp h
  obtain rfl := Except.ok.inj (htext.symm.trans htext')
  obtain ⟨_, hall, h⟩ := bind_eq_ok.mp h
  obtain ⟨_, hany, h⟩ := bind_eq_ok.mp h
  rw [raiseIf_eq_ok] at hall hany
  rw [callsignBytes, textBytes_of_encodeUtf8 henc hnul hmin hmax, ok_bind, raiseIf_of_not hall,
    ok_bind, raiseIf_of_not hany]
  rfl

theorem validateCallsign_field {value value' : Str} {field : String}
    (h : validateCallsign value field = .ok value') (field' : String) :
    validateCallsign value' field' = .ok value' := by
  obtain ⟨data, hdata, h⟩ := bind_eq_ok.mp h
  obtain rfl := Except.ok.inj h
  rw [validateCallsign, callsignBytes_field hdata field']
  rfl

theorem decodeCallsign_of_callsignBytes {value : Str} {field : String} {data : Bytes}
    (h : callsignBytes value field = .ok data) : decodeCallsign data field = .ok value := by
  obtain ⟨htext, hall, -⟩ := callsignBytes_eq_ok h
  have hascii : ∀ b ∈ data, b < 128 := by
    intro b hb
    rcases hall b hb with hb | hb
    all_goals
      simp only [isDigitByte, isUpperByte, Bool.and_eq_true, decide_eq_true_eq] at hb
      have hle := UInt8.le_iff_toNat_le.mp hb.2
      exact UInt8.lt_iff_toNat_lt.mpr (lt_of_le_of_lt hle (by decide))
  rw [decodeCallsign, decodeAscii_of_encodeUtf8 (textBytes_eq_ok htext).1 hascii]
  simp [h]

/-! ### Payloads -/

theorem decodeSendMessage_of_encode {value : SendMessage} {payload : Bytes}
    (h : encodeSendMessage value = .ok payload) :
    decodeSendMessage payload = .ok (.sendMessage value) := by
  simp only [encodeSendMessage, bind_eq_ok] at h
  obtain ⟨recipient, hrecipient, body, hbody, createdAt, hcreated, rbytes, hr, bbytes, hb, h⟩ := h
  obtain rfl := Except.ok.inj h
  obtain ⟨n, hn, hlt, hnz, rfl⟩ := encodeU32_eq_ok hcreated
  have hb' := Reader.prefixed_append hb "body" []
  rw [List.append_nil] at hb'
  simp only [decodeSendMessage, List.append_assoc, Reader.u32_append hlt, ok_bind,
    Reader.prefixed_append hr, hb', decodeCallsign_of_callsignBytes hrecipient,
    decodeText_of_textBytes hbody, Reader.finish_nil, integer_of_eq hn hlt hnz, ← hn]
  rfl

theorem encodeRetrieval_eq_ok {since max : ℤ} {payload : Bytes}
    (h : encodeRetrieval since max = .ok payload) :
    ∃ s m : ℕ, since = s ∧ max = m ∧ s < 2 ^ 32 ∧ minRetrievalMax ≤ m ∧ m ≤ maxRetrievalMax ∧
      payload = toBigEndian 4 s ++ [UInt8.ofNat m] := by
  simp only [encodeRetrieval, bind_eq_ok] at h
  obtain ⟨m, hm, _, hrange, sbytes, hs, h⟩ := h
  obtain rfl := Except.ok.inj h
  obtain ⟨s, hsince, hslt, -, rfl⟩ := encodeU32_eq_ok hs
  rw [raiseIf_eq_ok, not_not] at hrange
  exact ⟨s, m, hsince, (integer_eq_ok hm).1, hslt, hrange.1, hrange.2, rfl⟩

theorem decodeRetrieval_of_encode {since max : ℤ} {payload : Bytes}
    (h : encodeRetrieval since max = .ok payload) (name : String) :
    ∃ s m : ℕ, since = s ∧ max = m ∧ decodeRetrieval payload name = .ok (s, m) := by
  obtain ⟨s, m, hs, hm, hlt, hmin, hmax, rfl⟩ := encodeRetrieval_eq_ok h
  have hlen : (toBigEndian 4 s ++ [UInt8.ofNat m]).length = 5 := by simp
  have htake : (toBigEndian 4 s ++ [UInt8.ofNat m]).take 4 = toBigEndian 4 s :=
    List.take_left' (length_toBigEndian 4 s)
  have hdrop : (toBigEndian 4 s ++ [UInt8.ofNat m]).drop 4 = [UInt8.ofNat m] :=
    List.drop_left' (length_toBigEndian 4 s)
  have hbyte : fromBigEndian [UInt8.ofNat m] = m :=
    fromBigEndian_toBigEndian (w := 1) (by rw [maxRetrievalMax] at hmax; omega)
  refine ⟨s, m, hs, hm, ?_⟩
  rw [decodeRetrieval, requireExact, if_pos hlen, htake, hdrop, hbyte,
    fromBigEndian_toBigEndian (w := 4) hlt]
  simp only [ok_bind, raiseIf_of_not (not_not.mpr (And.intro hmin hmax))]
  rfl

theorem decodeGetBulletin_of_encode {sequence : ℤ} {payload : Bytes}
    (h : encodeU32 sequence "sequence" true = .ok payload) :
    decodeGetBulletin payload = .ok (.getBulletin ⟨sequence⟩) := by
  obtain ⟨n, rfl, hlt, hnz, rfl⟩ := encodeU32_eq_ok h
  rw [decodeGetBulletin, requireExact, if_pos (length_toBigEndian 4 n)]
  simp only [ok_bind, fromBigEndian_toBigEndian (w := 4) hlt, integer_of_eq rfl hlt hnz]
  rfl

theorem decodeCapabilities_of_encode {value : Capabilities} {payload : Bytes}
    (h : encodeCapabilities value = .ok payload) :
    decodeCapabilities payload = .ok (.capabilities value) := by
  simp only [encodeCapabilities, bind_eq_ok] at h
  obtain ⟨version, hversion, capabilities, hcapabilities, h⟩ := h
  obtain rfl := Except.ok.inj h
  obtain ⟨v, hv, hvlt, -, rfl⟩ := encodeU8_eq_ok hversion
  obtain ⟨c, hc, hclt, -, rfl⟩ := encodeU32_eq_ok hcapabilities
  rw [decodeCapabilities, requireExact, if_pos (by simp), ok_bind,
    List.take_left' (length_toBigEndian 1 v), List.drop_left' (length_toBigEndian 1 v),
    fromBigEndian_toBigEndian (w := 1) hvlt, fromBigEndian_toBigEndian (w := 4) hclt,
    ← hv, ← hc]
  rfl

theorem decodeMessage_of_encode {value : Message} {payload : Bytes}
    (h : encodeMessage value = .ok payload) :
    decodeMessage payload = .ok (.message value) := by
  simp only [encodeMessage, bind_eq_ok] at h
  obtain ⟨author, hauthor, recipient, hrecipient, body, hbody, s, hs, c, hc, t, ht, abytes, ha,
    rbytes, hr, bbytes, hb, h⟩ := h
  obtain rfl := Except.ok.inj h
  obtain ⟨sn, hsn, hslt, hsnz, rfl⟩ := encodeU32_eq_ok hs
  obtain ⟨cn, hcn, hclt, hcnz, rfl⟩ := encodeU32_eq_ok hc
  obtain ⟨tn, htn, htlt, htnz, rfl⟩ := encodeU32_eq_ok ht
  have hb' := Reader.prefixed_append hb "body" []
  rw [List.append_nil] at hb'
  simp only [decodeMessage, List.append_assoc, Reader.u32_append hslt, Reader.u32_append hclt,
    Reader.u32_append htlt, ok_bind, Reader.prefixed_append ha, Reader.prefixed_append hr, hb',
    decodeCallsign_of_callsignBytes hauthor, decodeCallsign_of_callsignBytes hrecipient,
    decodeText_of_textBytes hbody, Reader.finish_nil, integer_of_eq hsn hslt hsnz,
    integer_of_eq hcn hclt hcnz, integer_of_eq htn htlt htnz, ← hsn, ← hcn, ← htn]
  rfl

theorem decodeBulletinHeader_of_encode {value : BulletinHeader} {payload : Bytes}
    (h : encodeBulletinHeader value = .ok payload) :
    decodeBulletinHeader payload = .ok (.bulletinHeader value) := by
  simp only [encodeBulletinHeader, bind_eq_ok] at h
  obtain ⟨author, hauthor, title, htitle, s, hs, t, ht, abytes, ha, tbytes, htb, h⟩ := h
  obtain rfl := Except.ok.inj h
  obtain ⟨sn, hsn, hslt, hsnz, rfl⟩ := encodeU32_eq_ok hs
  obtain ⟨tn, htn, htlt, htnz, rfl⟩ := encodeU32_eq_ok ht
  have htb' := Reader.prefixed_append htb "title" []
  rw [List.append_nil] at htb'
  simp only [decodeBulletinHeader, List.append_assoc, Reader.u32_append hslt,
    Reader.u32_append htlt, ok_bind, Reader.prefixed_append ha, htb',
    decodeCallsign_of_callsignBytes hauthor, decodeText_of_textBytes htitle, Reader.finish_nil,
    integer_of_eq hsn hslt hsnz, integer_of_eq htn htlt htnz, ← hsn, ← htn]
  rfl

theorem decodeBulletin_of_encode {value : Bulletin} {payload : Bytes}
    (h : encodeBulletin value = .ok payload) :
    decodeBulletin payload = .ok (.bulletin value) := by
  simp only [encodeBulletin, bind_eq_ok] at h
  obtain ⟨author, hauthor, title, htitle, body, hbody, s, hs, t, ht, abytes, ha, tbytes, htb,
    bbytes, hb, h⟩ := h
  obtain rfl := Except.ok.inj h
  obtain ⟨sn, hsn, hslt, hsnz, rfl⟩ := encodeU32_eq_ok hs
  obtain ⟨tn, htn, htlt, htnz, rfl⟩ := encodeU32_eq_ok ht
  have hb' := Reader.prefixed_append hb "body" []
  rw [List.append_nil] at hb'
  simp only [decodeBulletin, List.append_assoc, Reader.u32_append hslt, Reader.u32_append htlt,
    ok_bind, Reader.prefixed_append ha, Reader.prefixed_append htb, hb',
    decodeCallsign_of_callsignBytes hauthor, decodeText_of_textBytes htitle,
    decodeText_of_textBytes hbody, Reader.finish_nil, integer_of_eq hsn hslt hsnz,
    integer_of_eq htn htlt htnz, ← hsn, ← htn]
  rfl

theorem decodeEnd_of_encode {value : End} {payload : Bytes} (h : encodeEnd value = .ok payload) :
    decodeEnd payload = .ok (.end value) := by
  simp only [encodeEnd, bind_eq_ok] at h
  obtain ⟨_, hop, returned, hreturned, next, hnext, h⟩ := h
  obtain rfl := Except.ok.inj h
  obtain ⟨r, hr, hrlt, -, rfl⟩ := encodeU8_eq_ok hreturned
  obtain ⟨n, hn, hnlt, -, rfl⟩ := encodeU32_eq_ok hnext
  rw [raiseIf_eq_ok, not_not] at hop
  obtain ⟨op, returnedCount, nextSince, hasMore⟩ := value
  simp only at hop hr hn
  subst hr hn
  have hlast : (([op.code] ++ toBigEndian 1 r ++ toBigEndian 4 n ++
      [if hasMore then 1 else 0]).getD 6 0 : UInt8) = if hasMore then 1 else 0 := by
    simp [toBigEndian]
  have hfrom1 : fromBigEndian ((([op.code] ++ toBigEndian 1 r ++ toBigEndian 4 n ++
      [if hasMore then 1 else 0]).drop 1).take 1) = r := by
    simpa [toBigEndian] using fromBigEndian_toBigEndian (w := 1) hrlt
  have hfrom4 : fromBigEndian ((([op.code] ++ toBigEndian 1 r ++ toBigEndian 4 n ++
      [if hasMore then 1 else 0]).drop 2).take 4) = n := by
    simpa [toBigEndian] using fromBigEndian_toBigEndian (w := 4) hnlt
  have hfirst : ([op.code] ++ toBigEndian 1 r ++ toBigEndian 4 n ++
      [if hasMore then 1 else 0]).getD 0 0 = op.code := rfl
  rw [decodeEnd, requireExact, if_pos (by simp), ok_bind, hfirst, hlast, hfrom1, hfrom4]
  cases hasMore <;> simp [raiseIf, hop]

theorem decodeRequestOperation_encode (op : Option Operation) :
    decodeRequestOperation (encodeRequestOperation op) = .ok op := by
  cases op with
  | none => rfl
  | some o => simp [encodeRequestOperation, decodeRequestOperation, o.code_ne_zero]

theorem decodeError_of_encode {value : Error} {payload : Bytes}
    (h : encodeError value = .ok payload) : decodeError payload = .ok (.error value) := by
  simp only [encodeError, bind_eq_ok] at h
  obtain ⟨detail, hdetail, dbytes, hd, h⟩ := h
  obtain rfl := Except.ok.inj h
  have hd' := Reader.prefixed_append hd "detail" []
  rw [List.append_nil] at hd'
  have hone (b : UInt8) (rest : Bytes) (field : String) :
      Reader.take 1 field (b :: rest) = .ok ([b], rest) := @Reader.take_append [b] rest 1 rfl _
  simp only [decodeError, List.cons_append, List.nil_append, hone, ok_bind, hd',
    decodeText_of_textBytes hdetail, Reader.finish_nil, List.getD_cons_zero,
    decodeRequestOperation_encode, ErrorCode.ofCode_code]
  rfl

/-- What an operation's encoder wrote, its decoder reads. -/
theorem decodePayload_of_encodePayload {obj : ProtocolObject} {payload : Bytes}
    (h : encodePayload obj = .ok payload) :
    decodePayload obj.operation payload = .ok obj := by
  cases obj with
  | sendMessage value => exact decodeSendMessage_of_encode h
  | getNewMessages value =>
    obtain ⟨s, m, hs, hm, hdec⟩ := decodeRetrieval_of_encode h "GET_NEW_MESSAGES"
    obtain ⟨since, max⟩ := value
    obtain rfl : since = s := hs
    obtain rfl : max = m := hm
    show decodeGetNewMessages payload = _
    rw [decodeGetNewMessages, hdec]
    rfl
  | getNewBulletins value =>
    obtain ⟨s, m, hs, hm, hdec⟩ := decodeRetrieval_of_encode h "GET_NEW_BULLETINS"
    obtain ⟨since, max⟩ := value
    obtain rfl : since = s := hs
    obtain rfl : max = m := hm
    show decodeGetNewBulletins payload = _
    rw [decodeGetNewBulletins, hdec]
    rfl
  | getBulletin value => exact decodeGetBulletin_of_encode h
  | getCapabilities => obtain rfl := Except.ok.inj h; rfl
  | getMessage value => cases h
  | message value => exact decodeMessage_of_encode h
  | bulletinHeader value => exact decodeBulletinHeader_of_encode h
  | bulletin value => exact decodeBulletin_of_encode h
  | «end» value => exact decodeEnd_of_encode h
  | stored => obtain rfl := Except.ok.inj h; rfl
  | error value => exact decodeError_of_encode h
  | capabilities value => exact decodeCapabilities_of_encode h

/-! ### `GET_MESSAGE` -/

theorem decodeAscii_of_encodeAscii {text : Str} {data : Bytes} (h : encodeAscii text = .ok data) :
    decodeAscii data = some text := by
  rw [encodeAscii] at h
  split at h
  · rename_i hall
    obtain rfl := Except.ok.inj h
    have hcode : ∀ c ∈ text, c.code < 128 := fun c hc => by
      simpa using List.all_eq_true.mp hall c hc
    have hbytes : (text.map fun c => UInt8.ofNat c.code).all (· < 128) = true := by
      rw [List.all_map, List.all_eq_true]
      intro c hc
      have hlt := hcode c hc
      have hmod : (UInt8.ofNat c.code).toNat = c.code % 256 := rfl
      simp only [Function.comp_apply, decide_eq_true_eq, UInt8.lt_iff_toNat_lt, hmod]
      exact lt_of_le_of_lt (Nat.mod_le _ _) hlt
    rw [decodeAscii, if_pos hbytes, ofAscii, List.map_map, Option.some.injEq]
    refine (List.map_congr_left fun c hc => ?_).trans (List.map_id text)
    have hlt := hcode c hc
    cases c with
    | surrogate unit => simp [PyChar.code] at hlt; omega
    | scalar ch =>
      have hmod : (UInt8.ofNat ch.toNat).toNat = ch.toNat := Nat.mod_eq_of_lt (by
        change ch.toNat < 128 at hlt; omega)
      simp only [Function.comp_apply, PyChar.code, hmod, Char.ofNat_toNat, id]
  · cases h

theorem decodeGetMessageFrame_of_encode {value : GetMessage} {frame : Bytes}
    (h : encodeGetMessageFrame value = .ok frame) :
    decodeGetMessageFrame frame = .ok (.getMessage value) ∧ isGetMessageFrame frame = true := by
  simp only [encodeGetMessageFrame, bind_eq_ok, raiseIf_eq_ok, not_not] at h
  obtain ⟨peer, hpeer, _, ⟨hmin, hmax⟩, _, hnormal, _, ⟨hpos, hle⟩, h⟩ := h
  obtain rfl := Except.ok.inj h
  obtain ⟨text, sequence⟩ := value
  obtain ⟨n, rfl⟩ : ∃ n : ℕ, sequence = n := ⟨sequence.toNat, by simp only at hpos; omega⟩
  simp only [Int.toNat_natCast] at hnormal hpos hle ⊢
  have hmin' : 3 ≤ peer.length := hmin
  have hmax' : peer.length ≤ 12 := hmax
  have hn : n < 256 ^ 4 := by norm_num; omega
  have hlen : ([UInt8.ofNat peer.length] ++ peer ++ toBigEndian 4 n).length =
    1 + peer.length + 4 := by
    simp; omega
  have hlenByte : (UInt8.ofNat peer.length).toNat = peer.length := Nat.mod_eq_of_lt (by omega)
  have hdrop : (UInt8.ofNat peer.length :: (peer ++ toBigEndian 4 n)).drop (1 + peer.length) =
      toBigEndian 4 n := by
    rw [Nat.add_comm, List.drop_succ_cons, List.drop_left]
  refine ⟨?_, by simp [isGetMessageFrame]⟩
  rw [decodeGetMessageFrame, hlen]
  have hheader : ¬1 + peer.length + 4 + 1 + 1 + 1 + 1 < 4 := by omega
  have htotal : ¬252 ≤ 1 + peer.length := by omega
  have hshort : ¬1 + peer.length + 4 < 8 := by omega
  have hsum : peer.length + 4 + 1 = 1 + peer.length + 4 := by omega
  have hzero : n ≠ 0 := by omega
  simp [raiseIf, headerSize, minCallsignLength, maxCallsignLength, hlenByte, hmin', hmax', hheader,
    htotal, hshort, hsum, hdrop, decodeAscii_of_encodeAscii hpeer, hnormal, hzero,
    fromBigEndian_toBigEndian (w := 4) hn]

/-! ### Frames -/

/-- The common header is read back, with flags that the operation and the reader permit. -/
theorem decodeHeader_append {op : Operation} {flags : UInt8} {payload : Bytes} {allow : Bool}
    (hlen : payload.length ≤ maxPayloadSize)
    (hflags : flags = 0 ∨ flags = unsolicitedFlag ∧ allow = true ∧ op.maybeUnsolicited = true) :
    decodeHeader ([protocolVersion, op.code, flags, UInt8.ofNat payload.length] ++ payload) allow =
      .ok (op, flags, payload) := by
  have hlen' : payload.length ≤ 255 := hlen
  have hbyte : (UInt8.ofNat payload.length).toNat = payload.length := Nat.mod_eq_of_lt (by omega)
  have hmax : ¬maxFrameSize < payload.length + 4 := by
    simp only [maxFrameSize, headerSize, maxPayloadSize]; omega
  have hmin : ¬payload.length + 1 + 1 + 1 + 1 < 4 := by omega
  have hmask : flags &&& ~~~(if allow = true then unsolicitedFlag else 0) = 0 := by
    rcases hflags with rfl | ⟨rfl, rfl, -⟩
    · simp
    · decide
  have hop : ¬(flags &&& unsolicitedFlag ≠ 0 ∧ ¬op.maybeUnsolicited = true) := by
    rcases hflags with rfl | ⟨-, -, h⟩
    · simp
    · simp [h]
  simp only [decodeHeader, List.cons_append, List.nil_append, List.length_cons, headerSize,
    List.getD_cons_zero, List.getD_cons_succ, raiseIf_of_not hmax, hbyte, Operation.ofCode_code,
    hmask, raiseIf_of_not hop]
  simp [raiseIf, hmin]

/-- Only a point lookup is sent under its operation code. -/
theorem isGetMessageFrame_append {obj : ProtocolObject} (hobj : ∀ value, obj ≠ .getMessage value)
    (flags : UInt8) (payload : Bytes) :
    isGetMessageFrame ([protocolVersion, obj.operation.code, flags, UInt8.ofNat payload.length] ++
      payload) = false := by
  cases obj with
  | getMessage value => exact absurd rfl (hobj value)
  | _ => simp [isGetMessageFrame, ProtocolObject.operation, Operation.code]

/-- What `encodeFrame` returns for an object other than a point lookup. -/
theorem encodeFrame_eq_ok {obj : ProtocolObject} {unsolicited : Bool} {frame : Bytes}
    (hobj : ∀ value, obj ≠ .getMessage value) (h : encodeFrame obj unsolicited = .ok frame) :
    ∃ payload, encodePayload obj = .ok payload ∧ payload.length ≤ maxPayloadSize ∧
      (unsolicited = true → obj.operation.maybeUnsolicited = true) ∧
      frame = [protocolVersion, obj.operation.code, if unsolicited then unsolicitedFlag else 0,
        UInt8.ofNat payload.length] ++ payload := by
  have hmatch : encodeFrame obj unsolicited = (do
      raiseIf (unsolicited ∧ ¬obj.operation.maybeUnsolicited) ⟨.protocolEncodeError,
        unsolicitedText⟩
      let payload ← encodePayload obj
      raiseIf (maxPayloadSize < payload.length)
        ⟨.protocolEncodeError, "payload exceeds the version 0.1 maximum size"⟩
      let flags := if unsolicited then unsolicitedFlag else 0
      return [protocolVersion, obj.operation.code, flags, UInt8.ofNat payload.length] ++
        payload) := by
    cases obj with
    | getMessage value => exact absurd rfl (hobj value)
    | _ => rfl
  rw [hmatch] at h
  simp only [bind_eq_ok, raiseIf_eq_ok] at h
  obtain ⟨_, hflag, payload, hpayload, _, hlen, h⟩ := h
  exact ⟨payload, hpayload, by omega, fun hu => by_contra fun hn => hflag ⟨hu, hn⟩,
    (Except.ok.inj h).symm⟩

/-- The encoder frames the payload of an object. -/
theorem encodeFrame_iff {obj : ProtocolObject} {unsolicited : Bool} {payload : Bytes}
    (hobj : ∀ value, obj ≠ .getMessage value) (hlen : payload.length ≤ maxPayloadSize)
    (hflag : unsolicited = true → obj.operation.maybeUnsolicited = true) :
    encodeFrame obj unsolicited = .ok ([protocolVersion, obj.operation.code,
        if unsolicited then unsolicitedFlag else 0, UInt8.ofNat payload.length] ++ payload) ↔
      encodePayload obj = .ok payload := by
  constructor
  · intro h
    obtain ⟨payload', hpayload, -, -, hframe⟩ := encodeFrame_eq_ok hobj h
    rwa [(List.append_inj hframe rfl).2]
  · intro h
    have hpermitted : ¬(unsolicited = true ∧ ¬obj.operation.maybeUnsolicited = true) :=
      fun hn => hn.2 (hflag hn.1)
    cases obj with
    | getMessage value => exact absurd rfl (hobj value)
    | _ =>
      simp only [encodeFrame, raiseIf_of_not hpermitted, h, ok_bind,
        raiseIf_of_not (Nat.not_lt.mpr hlen)]
      rfl

/-- **Round trip.** Whatever was encoded is read back, with the flag it was encoded with. -/
theorem decodeFrameWithFlags_of_encodeFrame {obj : ProtocolObject} {unsolicited : Bool}
    {frame : Bytes} (h : encodeFrame obj unsolicited = .ok frame) :
    decodeFrameWithFlags frame = .ok (obj, if unsolicited then unsolicitedFlag else 0) := by
  by_cases hobj : ∃ value, obj = .getMessage value
  · obtain ⟨value, rfl⟩ := hobj
    cases unsolicited with
    | true => cases h
    | false =>
      obtain ⟨hdec, hsel⟩ := decodeGetMessageFrame_of_encode h
      rw [decodeFrameWithFlags, if_pos hsel, hdec]
      rfl
  · rw [not_exists] at hobj
    obtain ⟨payload, hpayload, hlen, hflag, rfl⟩ := encodeFrame_eq_ok hobj h
    have hflags : (if unsolicited then unsolicitedFlag else 0) = 0 ∨
        (if unsolicited then unsolicitedFlag else 0) = unsolicitedFlag ∧ true = true ∧
          obj.operation.maybeUnsolicited = true := by
      cases unsolicited with
      | true => exact Or.inr ⟨rfl, rfl, hflag rfl⟩
      | false => exact Or.inl rfl
    have hheader := decodeHeader_append hlen hflags
    rw [decodeFrameWithFlags, isGetMessageFrame_append hobj, if_neg Bool.false_ne_true, hheader]
    simp only [ok_bind, decodePayload_of_encodePayload hpayload]
    rfl

/-- A frame encoded without flags is read back by the request decoder. -/
theorem decodeFrame_of_encodeFrame {obj : ProtocolObject} {frame : Bytes}
    (h : encodeFrame obj false = .ok frame) : decodeFrame frame = .ok obj := by
  by_cases hobj : ∃ value, obj = .getMessage value
  · obtain ⟨value, rfl⟩ := hobj
    obtain ⟨hdec, hsel⟩ := decodeGetMessageFrame_of_encode h
    rw [decodeFrame, if_pos hsel, hdec]
  · rw [not_exists] at hobj
    obtain ⟨payload, hpayload, hlen, -, rfl⟩ := encodeFrame_eq_ok hobj h
    have hheader := @decodeHeader_append obj.operation 0 payload false hlen (Or.inl rfl)
    rw [decodeFrame, isGetMessageFrame_append hobj, if_neg Bool.false_ne_true]
    simp only [Bool.false_eq_true, if_false, hheader, ok_bind]
    exact decodePayload_of_encodePayload hpayload

/-- A frame that is decoded has a header and does not exceed the maximum size. -/
theorem length_of_decodeFrameWithFlags {frame : Bytes} {decoded : ProtocolObject × UInt8}
    (h : decodeFrameWithFlags frame = .ok decoded) :
    headerSize ≤ frame.length ∧ frame.length ≤ maxFrameSize := by
  by_cases hselect : isGetMessageFrame frame = true
  · rw [decodeFrameWithFlags, if_pos hselect] at h
    obtain ⟨_, hdecode, -⟩ := bind_eq_ok.mp h
    obtain ⟨_, hshort, hdecode⟩ := bind_eq_ok.mp hdecode
    obtain ⟨_, -, hdecode⟩ := bind_eq_ok.mp hdecode
    obtain ⟨_, hdeclared, -⟩ := bind_eq_ok.mp hdecode
    rw [raiseIf_eq_ok, Nat.not_lt] at hshort
    rw [raiseIf_eq_ok, not_not, List.length_drop] at hdeclared
    have hbyte := (frame.getD 3 0).toNat_lt
    refine ⟨hshort, ?_⟩
    rw [headerSize] at hshort hdeclared
    rw [maxFrameSize, headerSize, maxPayloadSize]
    omega
  · rw [decodeFrameWithFlags, if_neg hselect] at h
    obtain ⟨_, hheader, -⟩ := bind_eq_ok.mp h
    obtain ⟨_, hshort, hheader⟩ := bind_eq_ok.mp hheader
    obtain ⟨_, hlong, -⟩ := bind_eq_ok.mp hheader
    rw [raiseIf_eq_ok, Nat.not_lt] at hshort hlong
    exact ⟨hshort, hlong⟩

/-- A frame never exceeds the maximum size of version 0.1. -/
theorem length_of_encodeFrame {obj : ProtocolObject} {unsolicited : Bool} {frame : Bytes}
    (h : encodeFrame obj unsolicited = .ok frame) : frame.length ≤ maxFrameSize := by
  by_cases hobj : ∃ value, obj = .getMessage value
  · obtain ⟨value, rfl⟩ := hobj
    cases unsolicited with
    | true => cases h
    | false =>
      simp only [encodeFrame, Bool.false_eq_true, if_false, encodeGetMessageFrame, bind_eq_ok,
        raiseIf_eq_ok, not_not] at h
      obtain ⟨peer, -, _, ⟨-, hmax⟩, _, -, _, -, h⟩ := h
      obtain rfl := Except.ok.inj h
      simp only [maxCallsignLength] at hmax
      simp [maxFrameSize, headerSize, maxPayloadSize]
      omega
  · rw [not_exists] at hobj
    obtain ⟨payload, -, hlen, -, rfl⟩ := encodeFrame_eq_ok hobj h
    simp only [maxPayloadSize] at hlen
    simp [maxFrameSize, headerSize, maxPayloadSize]
    omega

/-- The request decoder refuses a frame that carries the flag. -/
theorem decodeFrame_of_unsolicited {obj : ProtocolObject} {frame : Bytes}
    (h : encodeFrame obj true = .ok frame) :
    ∃ e, decodeFrame frame = .error e ∧ e.isA .invalidFieldError = true := by
  have hobj : ∀ value, obj ≠ .getMessage value := by
    rintro value rfl
    cases h
  obtain ⟨payload, -, hlen, -, rfl⟩ := encodeFrame_eq_ok hobj h
  have hmin : ¬payload.length + 1 + 1 + 1 + 1 < headerSize := by rw [headerSize]; omega
  have hmax : ¬maxFrameSize < payload.length + 1 + 1 + 1 + 1 := by
    simp only [maxFrameSize, headerSize]; omega
  refine ⟨.invalidField ("unsupported version 0.1 flags: " ++ hexByte unsolicitedFlag), ?_, rfl⟩
  rw [decodeFrame, isGetMessageFrame_append hobj, if_neg Bool.false_ne_true]
  simp only [decodeHeader, if_true, List.cons_append, List.nil_append, List.length_cons,
    List.getD_cons_zero, List.getD_cons_succ, Operation.ofCode_code, raiseIf_of_not hmin,
    raiseIf_of_not hmax, ok_bind]
  rfl

/-- **The codec.** A frame that was encoded fits in the maximum size, the carriage reads back the
object and its flag, and the request decoder reads back the object when the flag is clear and
raises when it is set. -/
theorem codec_roundTrip (obj : ProtocolObject) (unsolicited : Bool) (frame : Bytes)
    (h : encodeFrame obj unsolicited = .ok frame) :
    frame.length ≤ maxFrameSize ∧
    decodeFrameWithFlags frame = .ok (obj, if unsolicited then unsolicitedFlag else 0) ∧
    (unsolicited = false → decodeFrame frame = .ok obj) ∧
    (unsolicited = true → ∃ e, decodeFrame frame = .error e) := by
  refine ⟨length_of_encodeFrame h, decodeFrameWithFlags_of_encodeFrame h, ?_, ?_⟩
  · rintro rfl
    exact decodeFrame_of_encodeFrame h
  · rintro rfl
    obtain ⟨e, he, -⟩ := decodeFrame_of_unsolicited h
    exact ⟨e, he⟩

/-- A pushed message. -/
theorem codec_roundTrip_message :
    let obj : ProtocolObject := .message ⟨7, 2, 1700000000, str "EA1ABC", str "K1XYZ", str "¡73!"⟩
    ∃ frame, encodeFrame obj true = .ok frame ∧ frame.length ≤ maxFrameSize ∧
      decodeFrameWithFlags frame = .ok (obj, 1) ∧ ∃ e, decodeFrame frame = .error e := by
  intro obj
  refine ⟨[1, 64, 1, 31, 0, 0, 0, 7, 0, 0, 0, 2, 101, 83, 241, 0, 6, 69, 65, 49, 65, 66, 67, 5, 75,
    49, 88, 89, 90, 5, 194, 161, 55, 51, 33], by decide +kernel, ?_⟩
  obtain ⟨hlen, hflags, -, hraise⟩ := codec_roundTrip obj true [1, 64, 1, 31, 0, 0, 0, 7, 0, 0, 0,
    2,
    101, 83, 241, 0, 6, 69, 65, 49, 65, 66, 67, 5, 75, 49, 88, 89, 90, 5, 194, 161, 55, 51, 33]
    (by decide +kernel)
  exact ⟨hlen, hflags, hraise rfl⟩

end OpenQSP
