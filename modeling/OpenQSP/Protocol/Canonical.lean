import OpenQSP.Protocol.RoundTrip

/-!
# What the decoder accepts

The converse of the round trip: an accepted frame is the one that the encoder makes of its object.
Each reader has a lemma saying what it read, and a payload that was decoded is the sequence of what
its readers read.

There is one exception. The decoder of `CAPABILITIES` does not check that the protocol version is
not zero, and its encoder does.

## Main results

* `encodePayload_of_decodePayload` — payload by payload
* `encodeGetMessageFrame_of_decode` — the point lookup
* **`decodeFrameWithFlags_canonical`** — when an accepted frame is the encoded one
-/

namespace OpenQSP

open Py

/-! ### What a reader read -/

theorem Reader.take_eq_ok {size : ℕ} {field : String} {rest value rest' : Bytes}
    (h : Reader.take size field rest = .ok (value, rest')) :
    value.length = size ∧ rest = value ++ rest' := by
  rw [Reader.take] at h
  split at h
  · cases h
  · next hlen =>
    obtain ⟨rfl, rfl⟩ := Prod.mk.inj (Except.ok.inj h)
    exact ⟨by rw [List.length_take]; omega, (List.take_append_drop size rest).symm⟩

/-- What was read as an integer is its big-endian form. -/
theorem toBigEndian_of_length {data : Bytes} {width : ℕ} (h : data.length = width) :
    fromBigEndian data < 256 ^ width ∧ toBigEndian width (fromBigEndian data) = data := by
  subst h
  exact ⟨fromBigEndian_lt data, toBigEndian_fromBigEndian data⟩

theorem Reader.u32_eq_ok {field : String} {rest rest' : Bytes} {n : ℕ}
    (h : Reader.u32 field rest = .ok (n, rest')) : rest = toBigEndian 4 n ++ rest' := by
  obtain ⟨⟨value, rest₁⟩, htake, h⟩ := bind_eq_ok.mp h
  obtain ⟨rfl, rfl⟩ := Prod.mk.inj (Except.ok.inj h)
  obtain ⟨hlen, rfl⟩ := Reader.take_eq_ok htake
  rw [(toBigEndian_of_length hlen).2]

theorem Reader.u8_eq_ok {field : String} {rest rest' : Bytes} {n : ℕ}
    (h : Reader.u8 field rest = .ok (n, rest')) : n < 256 ∧ rest = toBigEndian 1 n ++ rest' := by
  obtain ⟨⟨value, rest₁⟩, htake, h⟩ := bind_eq_ok.mp h
  obtain ⟨rfl, rfl⟩ := Prod.mk.inj (Except.ok.inj h)
  obtain ⟨hlen, rfl⟩ := Reader.take_eq_ok htake
  obtain ⟨hlt, hvalue⟩ := toBigEndian_of_length hlen
  exact ⟨hlt, by rw [hvalue]⟩

/-- An integer that may be zero. -/
theorem integer_of_lt {n : ℕ} (bits : ℕ) (h : n < 2 ^ bits) (field : String) :
    integer n bits field false = .ok n :=
  integer_of_eq rfl h fun hnonzero => absurd hnonzero Bool.false_ne_true

theorem Reader.prefixed_eq_ok {field : String} {rest data rest' : Bytes}
    (h : Reader.prefixed field rest = .ok (data, rest')) :
    ∃ encoded, prefixBytes data = .ok encoded ∧ rest = encoded ++ rest' := by
  obtain ⟨⟨size, rest₁⟩, hsize, htake⟩ := bind_eq_ok.mp h
  obtain ⟨hlt, rfl⟩ := Reader.u8_eq_ok hsize
  obtain ⟨hlen, rfl⟩ := Reader.take_eq_ok htake
  refine ⟨toBigEndian 1 size ++ data, ?_, (List.append_assoc _ _ _).symm⟩
  rw [prefixBytes, encodeU8, hlen, integer_of_lt 8 hlt]
  rfl

theorem Reader.finish_eq_ok {rest : Bytes} {u : Unit} (h : Reader.finish rest = .ok u) :
    rest = [] := by
  rw [Reader.finish] at h
  split at h
  · assumption
  · cases h

theorem requireExact_eq_ok {payload : Bytes} {size : ℕ} {operation : String} {u : Unit}
    (h : requireExact payload size operation = .ok u) : payload.length = size := by
  rw [requireExact] at h
  split at h
  · assumption
  · cases h

/-- An integer that passed its check is written as it was read. -/
theorem encodeU32_of_integer {n m : ℕ} {field : String} {nonzero : Bool}
    (h : integer n 32 field nonzero = .ok m) :
    encodeU32 n field nonzero = .ok (toBigEndian 4 n) := by
  obtain ⟨hvalue, -⟩ := integer_eq_ok h
  obtain rfl : n = m := by exact_mod_cast hvalue
  rw [encodeU32, h]
  rfl

theorem encodeU32_of_lt {n : ℕ} (h : n < 256 ^ 4) (field : String) :
    encodeU32 n field false = .ok (toBigEndian 4 n) := by
  rw [encodeU32, integer_of_lt 32 h]
  rfl

theorem textBytes_of_decodeText {data : Bytes} {field : String} {minimum maximum : ℕ} {value : Str}
    (h : decodeText data field minimum maximum = .ok value) :
    textBytes value field minimum maximum = .ok data := by
  rw [decodeText] at h
  split at h
  · cases h
  next hlen =>
  split at h
  · cases h
  next hnul =>
  split at h
  · next value' hvalue =>
    obtain rfl := Except.ok.inj h
    rw [not_not] at hlen
    exact textBytes_of_encodeUtf8 (encodeUtf8_of_decodeUtf8 hvalue) hnul hlen.1 hlen.2
  · cases h

theorem callsignBytes_of_decodeCallsign {data : Bytes} {field : String} {value : Str}
    (h : decodeCallsign data field = .ok value) : callsignBytes value field = .ok data := by
  rw [decodeCallsign] at h
  split at h
  · cases h
  · next text htext =>
    obtain ⟨encoded, hencoded, h⟩ := bind_eq_ok.mp h
    obtain rfl := Except.ok.inj h
    have hsame := (textBytes_eq_ok (callsignBytes_eq_ok hencoded).1).1
    rw [decodeAscii_eq_some htext] at hsame
    rwa [Option.some.inj hsame]

/-! ### Payloads -/

theorem encodeSendMessage_of_decode {payload : Bytes} {obj : ProtocolObject}
    (h : decodeSendMessage payload = .ok obj) :
    obj.operation = .sendMessage ∧ encodePayload obj = .ok payload := by
  simp only [decodeSendMessage, bind_eq_ok, Prod.exists] at h
  obtain ⟨createdAt, _, hcreated, recipient, _, hr, recipient', hrecipient, body, _, hb, body',
    hbody, _, hend, _, hnonzero, h⟩ := h
  obtain rfl := Except.ok.inj h
  obtain rfl := Reader.finish_eq_ok hend
  obtain rfl := Reader.u32_eq_ok hcreated
  obtain ⟨rbytes, hrbytes, rfl⟩ := Reader.prefixed_eq_ok hr
  obtain ⟨bbytes, hbbytes, rfl⟩ := Reader.prefixed_eq_ok hb
  refine ⟨rfl, ?_⟩
  simp only [encodePayload, encodeSendMessage, callsignBytes_of_decodeCallsign hrecipient,
    textBytes_of_decodeText hbody, encodeU32_of_integer hnonzero, hrbytes, hbbytes, ok_bind,
    pure_eq_ok, List.append_assoc, List.append_nil]

theorem decodeRetrieval_eq_ok {payload : Bytes} {name : String} {since maximum : ℕ}
    (h : decodeRetrieval payload name = .ok (since, maximum)) :
    encodeRetrieval since maximum = .ok payload := by
  simp only [decodeRetrieval, bind_eq_ok, raiseIf_eq_ok, not_not] at h
  obtain ⟨_, hexact, _, ⟨hmin, hmax⟩, h⟩ := h
  have hlen := requireExact_eq_ok hexact
  obtain ⟨rfl, rfl⟩ := Prod.mk.inj (Except.ok.inj h)
  obtain ⟨hlt, hsince⟩ := toBigEndian_of_length (show (payload.take 4).length = 4 by simp [hlen])
  obtain ⟨b, hb⟩ := List.length_eq_one_iff.mp (show (payload.drop 4).length = 1 by simp [hlen])
  have hbyte : fromBigEndian [b] = b.toNat := by simp [fromBigEndian]
  rw [hb, hbyte] at hmin hmax ⊢
  rw [encodeRetrieval, integer_of_lt 8 b.toNat_lt, ok_bind,
    raiseIf_of_not (not_not.mpr ⟨hmin, hmax⟩), ok_bind, encodeU32_of_lt hlt, ok_bind, hsince,
    UInt8.ofNat_toNat, ← hb, List.take_append_drop]
  rfl

theorem encodeGetNewMessages_of_decode {payload : Bytes} {obj : ProtocolObject}
    (h : decodeGetNewMessages payload = .ok obj) :
    obj.operation = .getNewMessages ∧ encodePayload obj = .ok payload := by
  obtain ⟨⟨since, maximum⟩, hretrieval, h⟩ := bind_eq_ok.mp h
  obtain rfl := Except.ok.inj h
  exact ⟨rfl, decodeRetrieval_eq_ok hretrieval⟩

theorem encodeGetNewBulletins_of_decode {payload : Bytes} {obj : ProtocolObject}
    (h : decodeGetNewBulletins payload = .ok obj) :
    obj.operation = .getNewBulletins ∧ encodePayload obj = .ok payload := by
  obtain ⟨⟨since, maximum⟩, hretrieval, h⟩ := bind_eq_ok.mp h
  obtain rfl := Except.ok.inj h
  exact ⟨rfl, decodeRetrieval_eq_ok hretrieval⟩

theorem encodeGetBulletin_of_decode {payload : Bytes} {obj : ProtocolObject}
    (h : decodeGetBulletin payload = .ok obj) :
    obj.operation = .getBulletin ∧ encodePayload obj = .ok payload := by
  simp only [decodeGetBulletin, bind_eq_ok] at h
  obtain ⟨_, hexact, _, hnonzero, h⟩ := h
  obtain rfl := Except.ok.inj h
  refine ⟨rfl, ?_⟩
  rw [encodePayload, encodeU32_of_integer hnonzero,
    (toBigEndian_of_length (requireExact_eq_ok hexact)).2]

theorem decodeCapabilities_eq_ok {payload : Bytes} {obj : ProtocolObject}
    (h : decodeCapabilities payload = .ok obj) :
    obj.operation = .capabilities ∧ (encodePayload obj = .ok payload ↔ payload.getD 0 0 ≠ 0) := by
  obtain ⟨_, hexact, h⟩ := bind_eq_ok.mp h
  have hlen := requireExact_eq_ok hexact
  obtain rfl := Except.ok.inj h
  refine ⟨rfl, ?_⟩
  cases payload with
  | nil => cases hlen
  | cons version rest =>
    have hrest : rest.length = 4 := Nat.succ.inj hlen
    have hversion : fromBigEndian [version] = version.toNat := by simp [fromBigEndian]
    obtain ⟨hlt, hcapabilities⟩ := toBigEndian_of_length hrest
    simp only [List.take_succ_cons, List.take_zero, List.drop_succ_cons, List.drop_zero, hversion,
      List.getD_cons_zero, encodePayload, encodeCapabilities, encodeU32_of_lt hlt, hcapabilities]
    by_cases hzero : version = 0
    · subst hzero
      refine ⟨fun h => ?_, fun h => absurd rfl h⟩
      cases h
    · refine iff_of_true ?_ hzero
      have hpos : version.toNat ≠ 0 := fun h => hzero (UInt8.toNat_inj.mp h)
      rw [encodeU8, integer_of_eq rfl version.toNat_lt fun _ => hpos]
      simp [toBigEndian]

theorem encodeMessage_of_decode {payload : Bytes} {obj : ProtocolObject}
    (h : decodeMessage payload = .ok obj) :
    obj.operation = .message ∧ encodePayload obj = .ok payload := by
  simp only [decodeMessage, bind_eq_ok, Prod.exists] at h
  obtain ⟨s, _, hs, c, _, hc, t, _, ht, author, _, ha, author', hauthor, recipient, _, hr,
    recipient', hrecipient, body, _, hb, body', hbody, _, hend, _, hs', _, hc', _, ht', h⟩ := h
  obtain rfl := Except.ok.inj h
  obtain rfl := Reader.finish_eq_ok hend
  obtain rfl := Reader.u32_eq_ok hs
  obtain rfl := Reader.u32_eq_ok hc
  obtain rfl := Reader.u32_eq_ok ht
  obtain ⟨abytes, habytes, rfl⟩ := Reader.prefixed_eq_ok ha
  obtain ⟨rbytes, hrbytes, rfl⟩ := Reader.prefixed_eq_ok hr
  obtain ⟨bbytes, hbbytes, rfl⟩ := Reader.prefixed_eq_ok hb
  refine ⟨rfl, ?_⟩
  simp only [encodePayload, encodeMessage, callsignBytes_of_decodeCallsign hauthor,
    callsignBytes_of_decodeCallsign hrecipient, textBytes_of_decodeText hbody,
    encodeU32_of_integer hs', encodeU32_of_integer hc', encodeU32_of_integer ht', habytes, hrbytes,
    hbbytes, ok_bind, pure_eq_ok, List.append_assoc, List.append_nil]

theorem encodeBulletinHeader_of_decode {payload : Bytes} {obj : ProtocolObject}
    (h : decodeBulletinHeader payload = .ok obj) :
    obj.operation = .bulletinHeader ∧ encodePayload obj = .ok payload := by
  simp only [decodeBulletinHeader, bind_eq_ok, Prod.exists] at h
  obtain ⟨s, _, hs, t, _, ht, author, _, ha, author', hauthor, title, _, htb, title', htitle, _,
    hend, _, hs', _, ht', h⟩ := h
  obtain rfl := Except.ok.inj h
  obtain rfl := Reader.finish_eq_ok hend
  obtain rfl := Reader.u32_eq_ok hs
  obtain rfl := Reader.u32_eq_ok ht
  obtain ⟨abytes, habytes, rfl⟩ := Reader.prefixed_eq_ok ha
  obtain ⟨tbytes, htbytes, rfl⟩ := Reader.prefixed_eq_ok htb
  refine ⟨rfl, ?_⟩
  simp only [encodePayload, encodeBulletinHeader, callsignBytes_of_decodeCallsign hauthor,
    textBytes_of_decodeText htitle, encodeU32_of_integer hs', encodeU32_of_integer ht', habytes,
    htbytes, ok_bind, pure_eq_ok, List.append_assoc, List.append_nil]

theorem encodeBulletin_of_decode {payload : Bytes} {obj : ProtocolObject}
    (h : decodeBulletin payload = .ok obj) :
    obj.operation = .bulletin ∧ encodePayload obj = .ok payload := by
  simp only [decodeBulletin, bind_eq_ok, Prod.exists] at h
  obtain ⟨s, _, hs, t, _, ht, author, _, ha, author', hauthor, title, _, htb, title', htitle,
    body, _, hb, body', hbody, _, hend, _, hs', _, ht', h⟩ := h
  obtain rfl := Except.ok.inj h
  obtain rfl := Reader.finish_eq_ok hend
  obtain rfl := Reader.u32_eq_ok hs
  obtain rfl := Reader.u32_eq_ok ht
  obtain ⟨abytes, habytes, rfl⟩ := Reader.prefixed_eq_ok ha
  obtain ⟨tbytes, htbytes, rfl⟩ := Reader.prefixed_eq_ok htb
  obtain ⟨bbytes, hbbytes, rfl⟩ := Reader.prefixed_eq_ok hb
  refine ⟨rfl, ?_⟩
  simp only [encodePayload, encodeBulletin, callsignBytes_of_decodeCallsign hauthor,
    textBytes_of_decodeText htitle, textBytes_of_decodeText hbody, encodeU32_of_integer hs',
    encodeU32_of_integer ht', habytes, htbytes, hbbytes, ok_bind, pure_eq_ok, List.append_assoc,
    List.append_nil]

theorem ErrorCode.code_of_ofCode {byte : UInt8} {c : ErrorCode}
    (h : ErrorCode.ofCode byte = some c) :
    c.code = byte := by
  have hfound := List.find?_some h
  simpa using hfound

theorem encodeRequestOperation_of_decode {byte : UInt8} {op : Option Operation}
    (h : decodeRequestOperation byte = .ok op) : encodeRequestOperation op = byte := by
  rw [decodeRequestOperation] at h
  split at h
  · next hzero =>
    obtain rfl := Except.ok.inj h
    exact hzero.symm
  · split at h
    · next operation hop =>
      obtain rfl := Except.ok.inj h
      exact Operation.code_of_ofCode hop
    · cases h

theorem encodeError_of_decode {payload : Bytes} {obj : ProtocolObject}
    (h : decodeError payload = .ok obj) :
    obj.operation = .error ∧ encodePayload obj = .ok payload := by
  simp only [decodeError, bind_eq_ok, Prod.exists] at h
  obtain ⟨operation, _, hop, code, _, hcode, detail, _, hd, detail', hdetail, _, hend, op, hrequest,
    h⟩ := h
  split at h
  · next errorCode herror =>
    obtain rfl := Except.ok.inj h
    obtain rfl := Reader.finish_eq_ok hend
    obtain ⟨hoplen, rfl⟩ := Reader.take_eq_ok hop
    obtain ⟨hcodelen, rfl⟩ := Reader.take_eq_ok hcode
    obtain ⟨dbytes, hdbytes, rfl⟩ := Reader.prefixed_eq_ok hd
    obtain ⟨o, rfl⟩ := List.length_eq_one_iff.mp hoplen
    obtain ⟨c, rfl⟩ := List.length_eq_one_iff.mp hcodelen
    refine ⟨rfl, ?_⟩
    simp only [encodePayload, encodeError, textBytes_of_decodeText hdetail,
      encodeRequestOperation_of_decode hrequest, ErrorCode.code_of_ofCode herror, hdbytes, ok_bind,
      pure_eq_ok, List.append_nil]
    rfl
  · cases h

theorem encodeEnd_of_decode {payload : Bytes} {obj : ProtocolObject}
    (h : decodeEnd payload = .ok obj) :
    obj.operation = .end ∧ encodePayload obj = .ok payload := by
  obtain ⟨_, hexact, h⟩ := bind_eq_ok.mp h
  have hlen := requireExact_eq_ok hexact
  match payload, hlen with
  | [o, r, n₁, n₂, n₃, n₄, m], _ =>
    split at h
    · cases h
    · next operation hoperation =>
      simp only [bind_eq_ok, raiseIf_eq_ok, not_not] at h
      obtain ⟨_, hretrieval, _, hmore, h⟩ := h
      obtain rfl := Except.ok.inj h
      obtain ⟨hrlt, hr⟩ := toBigEndian_of_length (show [r].length = 1 from rfl)
      obtain ⟨hnlt, hn⟩ := toBigEndian_of_length (show [n₁, n₂, n₃, n₄].length = 4 from rfl)
      have hcode : operation.code = o := Operation.code_of_ofCode hoperation
      have hlast : (if decide (m = 1) = true then (1 : UInt8) else 0) = m := by
        change ¬(m ≠ 0 ∧ m ≠ 1) at hmore
        by_cases hone : m = 1
        · rw [if_pos (decide_eq_true hone), hone]
        · rw [if_neg (by simpa using hone)]
          exact (by_contra fun hzero => hmore ⟨fun h => hzero h.symm, hone⟩)
      refine ⟨rfl, ?_⟩
      show encodeEnd ⟨operation, fromBigEndian [r], fromBigEndian [n₁, n₂, n₃, n₄],
        decide (m = 1)⟩ = _
      rw [encodeEnd, raiseIf_of_not (not_not.mpr hretrieval), ok_bind, encodeU8,
        integer_of_lt 8 hrlt, ok_bind, pure_eq_ok, ok_bind, encodeU32_of_lt hnlt, ok_bind, hr, hn,
        hcode, hlast]
      rfl

/-- What an operation's decoder accepted, its encoder writes, unless it is a `CAPABILITIES` of
protocol version zero. -/
theorem encodePayload_of_decodePayload {op : Operation} {payload : Bytes} {obj : ProtocolObject}
    (h : decodePayload op payload = .ok obj) :
    obj.operation = op ∧
      (encodePayload obj = .ok payload ↔ ¬(op = .capabilities ∧ payload.getD 0 0 = 0)) := by
  have hother : op ≠ .capabilities → obj.operation = op ∧ encodePayload obj = .ok payload →
      obj.operation = op ∧
        (encodePayload obj = .ok payload ↔ ¬(op = .capabilities ∧ payload.getD 0 0 = 0)) :=
    fun hop h => ⟨h.1, iff_of_true h.2 fun h => hop h.1⟩
  cases op with
  | sendMessage => exact hother nofun (encodeSendMessage_of_decode h)
  | getNewMessages => exact hother nofun (encodeGetNewMessages_of_decode h)
  | getNewBulletins => exact hother nofun (encodeGetNewBulletins_of_decode h)
  | getBulletin => exact hother nofun (encodeGetBulletin_of_decode h)
  | getCapabilities =>
    refine hother nofun ?_
    obtain ⟨_, hexact, h⟩ := bind_eq_ok.mp h
    obtain rfl := List.length_eq_zero_iff.mp (requireExact_eq_ok hexact)
    obtain rfl := Except.ok.inj h
    exact ⟨rfl, rfl⟩
  | getMessage => cases h
  | message => exact hother nofun (encodeMessage_of_decode h)
  | bulletinHeader => exact hother nofun (encodeBulletinHeader_of_decode h)
  | bulletin => exact hother nofun (encodeBulletin_of_decode h)
  | «end» => exact hother nofun (encodeEnd_of_decode h)
  | stored =>
    refine hother nofun ?_
    obtain ⟨_, hexact, h⟩ := bind_eq_ok.mp h
    obtain rfl := List.length_eq_zero_iff.mp (requireExact_eq_ok hexact)
    obtain rfl := Except.ok.inj h
    exact ⟨rfl, rfl⟩
  | error => exact hother nofun (encodeError_of_decode h)
  | capabilities =>
    obtain ⟨hop, hiff⟩ := decodeCapabilities_eq_ok h
    exact ⟨hop, hiff.trans (by simp)⟩

/-! ### `GET_MESSAGE` -/

theorem encodeAscii_of_decodeAscii {data : Bytes} {text : Str} (h : decodeAscii data = some text) :
    encodeAscii text = .ok data := by
  rw [decodeAscii] at h
  split at h
  · next hall =>
    obtain rfl := Option.some.inj h
    have hcode : ∀ b ∈ data, (Char.ofNat b.toNat).toNat = b.toNat := by
      intro b hb
      have hlt : b.toNat < 128 := by
        simpa [UInt8.lt_iff_toNat_lt] using List.all_eq_true.mp hall b hb
      rw [Char.ofNat, dif_pos (Or.inl (by omega))]
      rfl
    have hascii : (ofAscii data).all (·.code < 128) = true := by
      rw [ofAscii, List.all_map, List.all_eq_true]
      intro b hb
      have hlt : b.toNat < 128 := by
        simpa [UInt8.lt_iff_toNat_lt] using List.all_eq_true.mp hall b hb
      simp only [Function.comp_apply, PyChar.code, hcode b hb, decide_eq_true_eq, hlt]
    rw [encodeAscii, if_pos hascii, ofAscii, List.map_map]
    refine congrArg Except.ok ((List.map_congr_left fun b hb => ?_).trans (List.map_id data))
    simp only [Function.comp_apply, PyChar.code, hcode b hb, UInt8.ofNat_toNat, id]
  · cases h

/-- A list splits at a place that is not beyond its end. -/
theorem getD_cons_drop {data : Bytes} {n : ℕ} (h : n < data.length) :
    data.getD n 0 :: data.drop (n + 1) = data.drop n := by
  rw [List.drop_eq_getElem_cons h, List.getD_eq_getElem?_getD, List.getElem?_eq_getElem h,
    Option.getD_some]

/-- A frame is its header and its payload. -/
theorem header_append {data : Bytes} (h : headerSize ≤ data.length) :
    data = [data.getD 0 0, data.getD 1 0, data.getD 2 0, data.getD 3 0] ++
      data.drop headerSize := by
  rw [headerSize] at h
  simp only [List.cons_append, List.nil_append, headerSize,
    getD_cons_drop (show 3 < data.length by omega),
    getD_cons_drop (show 2 < data.length by omega), getD_cons_drop (show 1 < data.length by omega),
    getD_cons_drop (show 0 < data.length by omega), List.drop_zero]

theorem encodeGetMessageFrame_of_decode {data : Bytes} {obj : ProtocolObject}
    (h : decodeGetMessageFrame data = .ok obj) :
    ∃ value, obj = .getMessage value ∧ encodeGetMessageFrame value = .ok data := by
  simp only [decodeGetMessageFrame, bind_eq_ok, raiseIf_eq_ok, not_not, not_or] at h
  obtain ⟨_, hshort, _, ⟨hversion, hop, hflags⟩, _, hlength, _, htruncated, _, hpeer, _, hexact,
    h⟩ := h
  split at h
  · cases h
  next peer hascii =>
  simp only [bind_eq_ok, raiseIf_eq_ok, not_not] at h
  obtain ⟨_, hnormal, _, hnonzero, h⟩ := h
  obtain rfl := Except.ok.inj h
  refine ⟨_, rfl, ?_⟩
  have hheader := header_append (Nat.not_lt.mp hshort)
  rw [hversion, hop, hflags] at hheader
  generalize hpayload : data.drop headerSize = payload at *
  generalize hlast : data.getD 3 0 = last at *
  subst hheader
  -- The payload is the length of the callsign, the callsign and the number.
  cases payload with
  | nil => simp at htruncated
  | cons size rest =>
    simp only [List.getD_cons_zero, List.drop_succ_cons, List.drop_zero, List.length_cons,
      Nat.add_comm 1 size.toNat] at *
    have hrest : rest.length = size.toNat + 4 := by omega
    have hpeerlen : (rest.take size.toNat).length = size.toNat := by
      rw [List.length_take]; omega
    obtain ⟨hlt, hsequence⟩ := toBigEndian_of_length
      (show (rest.drop size.toNat).length = 4 by rw [List.length_drop]; omega)
    generalize hsplit : rest.drop size.toNat = tail at *
    have htail : rest = rest.take size.toNat ++ tail := by rw [← hsplit, List.take_append_drop]
    have hpos : 1 ≤ (fromBigEndian tail : ℤ) ∧ (fromBigEndian tail : ℤ) ≤ 0xFFFFFFFF := by
      norm_num at hlt
      omega
    have hsize : UInt8.ofNat (rest.length + 1) = last := by
      rw [← hlength, UInt8.ofNat_toNat]
    rw [encodeGetMessageFrame, encodeAscii_of_decodeAscii hascii, ok_bind, hpeerlen,
      raiseIf_of_not (not_not.mpr hpeer), ok_bind, raiseIf_of_not (not_not.mpr hnormal), ok_bind]
    simp only [raiseIf_of_not (not_not.mpr hpos), ok_bind, Int.toNat_natCast, hsequence,
      UInt8.ofNat_toNat, List.cons_append, List.nil_append, ← htail, List.length_cons, hsize]
    rfl

/-! ### Frames -/

theorem flags_cases {flags : UInt8} (h : flags &&& ~~~unsolicitedFlag = 0) :
    flags = 0 ∨ flags = unsolicitedFlag := by
  have hall : ∀ n : Fin 256, (UInt8.ofFin n) &&& ~~~unsolicitedFlag = 0 →
      UInt8.ofFin n = 0 ∨ UInt8.ofFin n = unsolicitedFlag := by decide +kernel
  exact hall flags.toFin h

/-- A header that was accepted is the one the encoder writes. -/
theorem decodeHeader_eq_ok {data payload : Bytes} {op : Operation} {flags : UInt8}
    (h : decodeHeader data true = .ok (op, flags, payload)) :
    payload.length ≤ maxPayloadSize ∧ (flags = 0 ∨ flags = unsolicitedFlag) ∧
      (flags = unsolicitedFlag → op.maybeUnsolicited = true) ∧
      data = [protocolVersion, op.code, flags, UInt8.ofNat payload.length] ++ payload := by
  simp only [decodeHeader, bind_eq_ok, raiseIf_eq_ok, not_not] at h
  obtain ⟨_, hshort, _, hlong, _, hversion, h⟩ := h
  split at h
  · cases h
  next operation hoperation =>
  simp only [bind_eq_ok, raiseIf_eq_ok, not_not, if_true] at h
  obtain ⟨_, hmask, _, hunsolicited, _, hlength, h⟩ := h
  obtain ⟨rfl, hflags, rfl⟩ := Prod.mk.inj (Except.ok.inj h) |>.imp_right Prod.mk.inj
  have hheader := header_append (Nat.not_lt.mp hshort)
  have hdrop : (data.drop headerSize).length = (data.getD 3 0).toNat := by
    rw [List.length_drop, hlength]
  refine ⟨?_, ?_, ?_, ?_⟩
  · have hlt := (data.getD 3 0).toNat_lt
    rw [hdrop, maxPayloadSize]
    omega
  · rw [← hflags]
    exact flags_cases hmask
  · intro h
    rw [← hflags] at h
    rw [h] at hunsolicited
    by_contra hnot
    exact hunsolicited ⟨by decide, hnot⟩
  · rw [hdrop, UInt8.ofNat_toNat, Operation.code_of_ofCode hoperation, ← hflags, ← hversion]
    exact hheader

/-- The two ways in which a frame is accepted. -/
theorem decodeFrameWithFlags_cases {data : Bytes} {obj : ProtocolObject} {flags : UInt8}
    (h : decodeFrameWithFlags data = .ok (obj, flags)) :
    (∃ value, obj = .getMessage value ∧ flags = 0 ∧ encodeGetMessageFrame value = .ok data) ∨
    ∃ payload, decodePayload obj.operation payload = .ok obj ∧ payload.length ≤ maxPayloadSize ∧
      (flags = 0 ∨ flags = unsolicitedFlag) ∧
      (flags = unsolicitedFlag → obj.operation.maybeUnsolicited = true) ∧
      data = [protocolVersion, obj.operation.code, flags, UInt8.ofNat payload.length] ++
        payload := by
  rw [decodeFrameWithFlags] at h
  split at h
  · obtain ⟨obj', hdecode, h⟩ := bind_eq_ok.mp h
    obtain ⟨rfl, rfl⟩ := Prod.mk.inj (Except.ok.inj h)
    obtain ⟨value, rfl, hencode⟩ := encodeGetMessageFrame_of_decode hdecode
    exact .inl ⟨value, rfl, rfl, hencode⟩
  · obtain ⟨⟨op, flags', payload⟩, hheader, h⟩ := bind_eq_ok.mp h
    obtain ⟨obj', hdecode, h⟩ := bind_eq_ok.mp h
    obtain ⟨rfl, rfl⟩ := Prod.mk.inj (Except.ok.inj h)
    obtain ⟨hlen, hflags, hunsolicited, hdata⟩ := decodeHeader_eq_ok hheader
    obtain ⟨rfl, -⟩ := encodePayload_of_decodePayload hdecode
    exact .inr ⟨payload, hdecode, hlen, hflags, hunsolicited, hdata⟩

/-- The decoder of an operation accepts at most one payload for an object. -/
theorem decodePayload_inj {op : Operation} {payload payload' : Bytes} {obj : ProtocolObject}
    (h : decodePayload op payload = .ok obj) (h' : decodePayload op payload' = .ok obj) :
    payload = payload' := by
  by_cases hop : op = .capabilities
  · subst hop
    obtain ⟨_, hexact, h⟩ := bind_eq_ok.mp h
    obtain ⟨_, hexact', h'⟩ := bind_eq_ok.mp h'
    have hlen := requireExact_eq_ok hexact
    have hlen' := requireExact_eq_ok hexact'
    have hsame := (Except.ok.inj h).trans (Except.ok.inj h').symm
    obtain ⟨hversion, hcapabilities⟩ := Capabilities.mk.inj (ProtocolObject.capabilities.inj hsame)
    rw [Nat.cast_inj] at hversion hcapabilities
    rw [← List.take_append_drop 1 payload, ← List.take_append_drop 1 payload',
      ← (toBigEndian_of_length (show (payload.take 1).length = 1 by simp [hlen])).2,
      ← (toBigEndian_of_length (show (payload'.take 1).length = 1 by simp [hlen'])).2,
      ← (toBigEndian_of_length (show (payload.drop 1).length = 4 by simp [hlen])).2,
      ← (toBigEndian_of_length (show (payload'.drop 1).length = 4 by simp [hlen'])).2,
      hversion, hcapabilities]
  · have hencode := (encodePayload_of_decodePayload h).2.mpr fun h => hop h.1
    have hencode' := (encodePayload_of_decodePayload h').2.mpr fun h => hop h.1
    exact Except.ok.inj (hencode.symm.trans hencode')

/-- **Canonical frames.** When a frame is accepted, the encoder makes that very frame of its object
and flag, unless it is a `CAPABILITIES` of protocol version zero; and no other frame is decoded to
the same object and flag. -/
theorem decodeFrameWithFlags_canonical (data : Bytes) (obj : ProtocolObject) (flags : UInt8)
    (h : decodeFrameWithFlags data = .ok (obj, flags)) :
    (encodeFrame obj (flags = 1) = .ok data ↔
      ¬(data.getD 1 0 = Operation.capabilities.code ∧ data.getD 4 0 = 0)) ∧
    ∀ data', decodeFrameWithFlags data' = .ok (obj, flags) → data' = data := by
  rcases decodeFrameWithFlags_cases h with
    ⟨value, rfl, rfl, hencode⟩ | ⟨payload, hdecode, hlen, hflags, hunsolicited, rfl⟩
  · refine ⟨iff_of_true hencode ?_, fun data' h' => ?_⟩
    · rintro ⟨hcode, -⟩
      have hselected := (decodeGetMessageFrame_of_encode hencode).2
      rw [isGetMessageFrame, Bool.and_eq_true, decide_eq_true_eq, hcode] at hselected
      exact absurd hselected.2 (by decide)
    · rcases decodeFrameWithFlags_cases h' with
        ⟨value', hvalue, -, hencode'⟩ | ⟨payload, hdecode, -⟩
      · obtain rfl := ProtocolObject.getMessage.inj hvalue
        exact Except.ok.inj (hencode'.symm.trans hencode)
      · cases hdecode
  · have hobj : ∀ value, obj ≠ .getMessage value := by
      rintro value rfl
      cases hdecode
    have hflag : (if decide (flags = 1) = true then unsolicitedFlag else 0) = flags := by
      rcases hflags with rfl | rfl
      · rfl
      · rfl
    have hpermitted : decide (flags = 1) = true → obj.operation.maybeUnsolicited = true :=
      fun h => hunsolicited (of_decide_eq_true h)
    have hframe := encodeFrame_iff hobj hlen hpermitted
    rw [hflag] at hframe
    refine ⟨?_, fun data' h' => ?_⟩
    · rw [hframe, (encodePayload_of_decodePayload hdecode).2]
      have hcode : obj.operation.code = Operation.capabilities.code ↔
          obj.operation = .capabilities := by
        constructor
        · intro hcode
          have hof := Operation.ofCode_code obj.operation
          rw [hcode, Operation.ofCode_code] at hof
          exact (Option.some.inj hof).symm
        · exact congrArg Operation.code
      show _ ↔ ¬(obj.operation.code = _ ∧ payload.getD 0 0 = 0)
      rw [hcode]
    · rcases decodeFrameWithFlags_cases h' with
        ⟨value, hvalue, -⟩ | ⟨payload', hdecode', -, -, -, rfl⟩
      · exact absurd hvalue (hobj value)
      · rw [decodePayload_inj hdecode hdecode']

/-- A `CAPABILITIES` of protocol version zero is accepted, and cannot be encoded. -/
theorem decodeFrameWithFlags_zeroVersion :
    decodeFrameWithFlags [1, 0x46, 0, 5, 0, 0, 0, 0, 0] = .ok (.capabilities ⟨0, 0⟩, 0) ∧
      encodeFrame (.capabilities ⟨0, 0⟩) false =
        .error (.invalidField "protocol_version must be a non-zero unsigned 8-bit value") := by
  decide +kernel

/-- The request for the capabilities is canonical. -/
theorem decodeFrameWithFlags_canonical_getCapabilities :
    decodeFrameWithFlags [1, 5, 0, 0] = .ok (.getCapabilities, 0) ∧
      encodeFrame .getCapabilities false = .ok [1, 5, 0, 0] :=
  ⟨by decide +kernel, (decodeFrameWithFlags_canonical [1, 5, 0, 0] .getCapabilities 0
    (by decide +kernel)).1.mpr (by decide)⟩

end OpenQSP
