import OpenQSP.Protocol.Canonical

/-!
# What can be encoded

The encoder checks every field of an object and raises at the first that breaks its rule. Here the
rules are predicates on the objects, and an object is encoded exactly when it satisfies them: the
size of the frame is never what makes it fail, because the limits of the fields already bound it.

## Main definitions

* `ValidText`, `ValidCallsign`, `ValidU32`
* `Message.Valid`, `SendMessage.Valid`, `BulletinHeader.Valid`, `Bulletin.Valid`, `End.Valid`
* `Encodable`

## Main results

* `encodable_message`, `encodable_sendMessage`, `encodable_bulletinHeader`, `encodable_bulletin`,
  `encodable_end`, `encodable_error`
* `encodeFrame_of_decodeFrame` — a request that was decoded can be encoded; so its fields are valid
-/

namespace OpenQSP

open Py

/-! ### Field rules -/

/-- Text without NUL whose UTF-8 form has a length within the bounds. -/
def ValidText (minimum maximum : ℕ) (value : Str) : Prop :=
  ∃ data, encodeUtf8 value = some data ∧ 0 ∉ data ∧ minimum ≤ data.length ∧ data.length ≤ maximum

/-- A normalized callsign. -/
def ValidCallsign (value : Str) : Prop := ∃ data, callsignBytes value "callsign" = .ok data

/-- A positive unsigned 32-bit value. -/
def ValidU32 (value : ℤ) : Prop := 1 ≤ value ∧ value ≤ 0xFFFFFFFF

theorem exists_textBytes {value : Str} {minimum maximum : ℕ} (field : String) :
    (∃ data, textBytes value field minimum maximum = .ok data) ↔
      ValidText minimum maximum value := by
  constructor
  · rintro ⟨data, h⟩
    exact ⟨data, textBytes_eq_ok h⟩
  · rintro ⟨data, hdata, hnul, hmin, hmax⟩
    exact ⟨data, textBytes_of_encodeUtf8 hdata hnul hmin hmax⟩

theorem exists_callsignBytes {value : Str} (field : String) :
    (∃ data, callsignBytes value field = .ok data) ↔ ValidCallsign value := by
  constructor
  · rintro ⟨data, h⟩
    exact ⟨data, callsignBytes_field h _⟩
  · rintro ⟨data, h⟩
    exact ⟨data, callsignBytes_field h _⟩

theorem validateCallsign_iff {value : Str} (field : String) :
    validateCallsign value field = .ok value ↔ ValidCallsign value := by
  rw [← exists_callsignBytes field, validateCallsign, bind_eq_ok]
  constructor
  · rintro ⟨data, hdata, -⟩
    exact ⟨data, hdata⟩
  · rintro ⟨data, hdata⟩
    exact ⟨data, hdata, rfl⟩

/-- A normalized callsign consists of digits and capital letters. -/
theorem ValidCallsign.isBase36 {value : Str} (h : ValidCallsign value) :
    ∀ c ∈ value, c.isBase36 := by
  obtain ⟨data, hdata⟩ := h
  obtain ⟨htext, hall, -⟩ := callsignBytes_eq_ok hdata
  have hbytes : ∀ b ∈ data, 48 ≤ b.toNat ∧ b.toNat ≤ 57 ∨ 65 ≤ b.toNat ∧ b.toNat ≤ 90 := by
    intro b hb
    have hb := hall b hb
    simp only [isDigitByte, isUpperByte, Bool.and_eq_true, decide_eq_true_eq,
      UInt8.le_iff_toNat_le] at hb
    exact hb
  have hascii : ∀ b ∈ data, b < 128 := by
    intro b hb
    have hb := hbytes b hb
    exact UInt8.lt_iff_toNat_lt.mpr (show b.toNat < 128 by omega)
  have hvalue : value = ofAscii data :=
    encodeUtf8_inj (textBytes_eq_ok htext).1 (encodeUtf8_ofAscii hascii)
  intro c hc
  rw [hvalue, ofAscii] at hc
  obtain ⟨b, hb, rfl⟩ := List.mem_map.mp hc
  have hb := hbytes b hb
  have hcode : (PyChar.scalar (Char.ofNat b.toNat)).code = b.toNat := by
    rw [PyChar.code, Char.ofNat, dif_pos (Or.inl (by omega))]
    rfl
  simp only [PyChar.isBase36, PyChar.isDigit, PyChar.isUpper, hcode, Bool.or_eq_true,
    Bool.and_eq_true, decide_eq_true_eq]
  exact hb

/-- Only small letters have another upper case. -/
theorem PyChar.upper_eq_self {c : PyChar} (h : ¬(97 ≤ c.code ∧ c.code ≤ 122)) : c.upper = c := by
  cases c with
  | surrogate unit => rfl
  | scalar c =>
    have hcode : (PyChar.scalar c).code = c.val.toNat := rfl
    have hlower : ¬('a'.val ≤ c.val ∧ c.val ≤ 'z'.val) := fun hlower =>
      h ⟨UInt32.le_iff_toNat_le.mp hlower.1, UInt32.le_iff_toNat_le.mp hlower.2⟩
    exact congrArg PyChar.scalar (dif_neg hlower)

theorem exists_encodeU32 {value : ℤ} (field : String) :
    (∃ data, encodeU32 value field true = .ok data) ↔ ValidU32 value := by
  constructor
  · rintro ⟨data, h⟩
    obtain ⟨n, rfl, hlt, hpos, -⟩ := encodeU32_eq_ok h
    have hn := hpos rfl
    exact ⟨by omega, by omega⟩
  · rintro ⟨hmin, hmax⟩
    obtain ⟨n, rfl⟩ := Int.eq_ofNat_of_zero_le (by omega : 0 ≤ value)
    refine ⟨toBigEndian 4 n, ?_⟩
    rw [encodeU32, integer_of_eq rfl (by omega) fun _ => by omega]
    rfl

/-- The sizes of what a valid field is written as. -/
theorem length_callsignBytes {value : Str} {field : String} {data : Bytes}
    (h : callsignBytes value field = .ok data) : data.length ≤ maxCallsignLength :=
  (textBytes_eq_ok (callsignBytes_eq_ok h).1).2.2.2

theorem prefixBytes_of_le {data : Bytes} (h : data.length < 256) :
    prefixBytes data = .ok (toBigEndian 1 data.length ++ data) := by
  rw [prefixBytes, encodeU8, integer_of_eq rfl h fun hn => absurd hn Bool.false_ne_true]
  rfl

/-! ### Objects -/

/-- The object can be encoded without a flag. -/
def Encodable (obj : ProtocolObject) : Prop := ∃ frame, encodeFrame obj false = .ok frame

theorem encodable_iff {obj : ProtocolObject} (hobj : ∀ value, obj ≠ .getMessage value) :
    Encodable obj ↔ ∃ payload, encodePayload obj = .ok payload ∧
      payload.length ≤ maxPayloadSize := by
  constructor
  · rintro ⟨frame, h⟩
    obtain ⟨payload, hpayload, hlen, -⟩ := encodeFrame_eq_ok hobj h
    exact ⟨payload, hpayload, hlen⟩
  · rintro ⟨payload, hpayload, hlen⟩
    exact ⟨_, (encodeFrame_iff hobj hlen fun h => absurd h Bool.false_ne_true).mpr hpayload⟩

structure Message.Valid (m : Message) : Prop where
  sequence : ValidU32 m.sequence
  conversationSequence : ValidU32 m.conversationSequence
  createdAt : ValidU32 m.createdAt
  author : ValidCallsign m.author
  recipient : ValidCallsign m.recipient
  body : ValidText minMessageBodyLength maxMessageBodyLength m.body

structure SendMessage.Valid (request : SendMessage) : Prop where
  createdAt : ValidU32 request.createdAt
  recipient : ValidCallsign request.recipient
  body : ValidText minMessageBodyLength maxMessageBodyLength request.body

structure BulletinHeader.Valid (header : BulletinHeader) : Prop where
  sequence : ValidU32 header.sequence
  createdAt : ValidU32 header.createdAt
  author : ValidCallsign header.author
  title : ValidText minBulletinTitleLength maxBulletinTitleLength header.title

structure Bulletin.Valid (bulletin : Bulletin) : Prop where
  sequence : ValidU32 bulletin.sequence
  createdAt : ValidU32 bulletin.createdAt
  author : ValidCallsign bulletin.author
  title : ValidText minBulletinTitleLength maxBulletinTitleLength bulletin.title
  body : ValidText minBulletinBodyLength maxBulletinBodyLength bulletin.body

structure End.Valid (last : End) : Prop where
  operation : last.requestOperation.isRetrieval
  count : 0 ≤ last.returnedCount ∧ last.returnedCount ≤ 0xFF
  nextSince : 0 ≤ last.nextSince ∧ last.nextSince ≤ 0xFFFFFFFF

theorem encodable_message {m : Message} : Encodable (.message m) ↔ m.Valid := by
  rw [encodable_iff fun _ => ProtocolObject.noConfusion]
  show (∃ payload, encodeMessage m = .ok payload ∧ _) ↔ _
  simp only [encodeMessage, bind_eq_ok]
  constructor
  · rintro ⟨payload, ⟨author, hauthor, recipient, hrecipient, body, hbody, s, hs, c, hc, at', hat,
      -⟩, -⟩
    exact ⟨(exists_encodeU32 _).mp ⟨s, hs⟩, (exists_encodeU32 _).mp ⟨c, hc⟩,
      (exists_encodeU32 _).mp ⟨at', hat⟩, (exists_callsignBytes _).mp ⟨author, hauthor⟩,
      (exists_callsignBytes _).mp ⟨recipient, hrecipient⟩, (exists_textBytes _).mp ⟨body, hbody⟩⟩
  · rintro ⟨hs, hc, hat, hauthor, hrecipient, hbody⟩
    obtain ⟨s, hs⟩ := (exists_encodeU32 "sequence").mpr hs
    obtain ⟨c, hc⟩ := (exists_encodeU32 "conversation_sequence").mpr hc
    obtain ⟨at', hat⟩ := (exists_encodeU32 "created_at").mpr hat
    obtain ⟨author, hauthor⟩ := (exists_callsignBytes "author").mpr hauthor
    obtain ⟨recipient, hrecipient⟩ := (exists_callsignBytes "recipient").mpr hrecipient
    obtain ⟨body, hbody⟩ := (exists_textBytes "body").mpr hbody
    have hlen := length_callsignBytes hauthor
    have hlen' := length_callsignBytes hrecipient
    obtain ⟨-, -, -, hlen''⟩ := textBytes_eq_ok hbody
    rw [maxCallsignLength] at hlen hlen'
    rw [maxMessageBodyLength] at hlen''
    refine ⟨_, ⟨author, hauthor, recipient, hrecipient, body, hbody, s, hs, c, hc, at', hat, _,
      prefixBytes_of_le (by omega), _, prefixBytes_of_le (by omega), _,
        prefixBytes_of_le (by omega),
      rfl⟩, ?_⟩
    obtain ⟨_, -, -, -, rfl⟩ := encodeU32_eq_ok hs
    obtain ⟨_, -, -, -, rfl⟩ := encodeU32_eq_ok hc
    obtain ⟨_, -, -, -, rfl⟩ := encodeU32_eq_ok hat
    simp only [List.length_append, length_toBigEndian, maxPayloadSize]
    omega

theorem encodable_sendMessage {request : SendMessage} :
    Encodable (.sendMessage request) ↔ request.Valid := by
  rw [encodable_iff fun _ => ProtocolObject.noConfusion]
  show (∃ payload, encodeSendMessage request = .ok payload ∧ _) ↔ _
  simp only [encodeSendMessage, bind_eq_ok]
  constructor
  · rintro ⟨payload, ⟨recipient, hrecipient, body, hbody, at', hat, -⟩, -⟩
    exact ⟨(exists_encodeU32 _).mp ⟨at', hat⟩, (exists_callsignBytes _).mp ⟨recipient, hrecipient⟩,
      (exists_textBytes _).mp ⟨body, hbody⟩⟩
  · rintro ⟨hat, hrecipient, hbody⟩
    obtain ⟨at', hat⟩ := (exists_encodeU32 "created_at").mpr hat
    obtain ⟨recipient, hrecipient⟩ := (exists_callsignBytes "recipient").mpr hrecipient
    obtain ⟨body, hbody⟩ := (exists_textBytes "body").mpr hbody
    have hlen := length_callsignBytes hrecipient
    obtain ⟨-, -, -, hlen'⟩ := textBytes_eq_ok hbody
    rw [maxCallsignLength] at hlen
    rw [maxMessageBodyLength] at hlen'
    refine ⟨_, ⟨recipient, hrecipient, body, hbody, at', hat, _, prefixBytes_of_le (by omega), _,
      prefixBytes_of_le (by omega), rfl⟩, ?_⟩
    obtain ⟨_, -, -, -, rfl⟩ := encodeU32_eq_ok hat
    simp only [List.length_append, length_toBigEndian, maxPayloadSize]
    omega

theorem encodable_bulletinHeader {header : BulletinHeader} :
    Encodable (.bulletinHeader header) ↔ header.Valid := by
  rw [encodable_iff fun _ => ProtocolObject.noConfusion]
  show (∃ payload, encodeBulletinHeader header = .ok payload ∧ _) ↔ _
  simp only [encodeBulletinHeader, bind_eq_ok]
  constructor
  · rintro ⟨payload, ⟨author, hauthor, title, htitle, s, hs, at', hat, -⟩, -⟩
    exact ⟨(exists_encodeU32 _).mp ⟨s, hs⟩, (exists_encodeU32 _).mp ⟨at', hat⟩,
      (exists_callsignBytes _).mp ⟨author, hauthor⟩, (exists_textBytes _).mp ⟨title, htitle⟩⟩
  · rintro ⟨hs, hat, hauthor, htitle⟩
    obtain ⟨s, hs⟩ := (exists_encodeU32 "sequence").mpr hs
    obtain ⟨at', hat⟩ := (exists_encodeU32 "created_at").mpr hat
    obtain ⟨author, hauthor⟩ := (exists_callsignBytes "author").mpr hauthor
    obtain ⟨title, htitle⟩ := (exists_textBytes "title").mpr htitle
    have hlen := length_callsignBytes hauthor
    obtain ⟨-, -, -, hlen'⟩ := textBytes_eq_ok htitle
    rw [maxCallsignLength] at hlen
    rw [maxBulletinTitleLength] at hlen'
    refine ⟨_, ⟨author, hauthor, title, htitle, s, hs, at', hat, _, prefixBytes_of_le (by omega), _,
      prefixBytes_of_le (by omega), rfl⟩, ?_⟩
    obtain ⟨_, -, -, -, rfl⟩ := encodeU32_eq_ok hs
    obtain ⟨_, -, -, -, rfl⟩ := encodeU32_eq_ok hat
    simp only [List.length_append, length_toBigEndian, maxPayloadSize]
    omega

theorem encodable_bulletin {bulletin : Bulletin} : Encodable (.bulletin bulletin) ↔
    bulletin.Valid := by
  rw [encodable_iff fun _ => ProtocolObject.noConfusion]
  show (∃ payload, encodeBulletin bulletin = .ok payload ∧ _) ↔ _
  simp only [encodeBulletin, bind_eq_ok]
  constructor
  · rintro ⟨payload, ⟨author, hauthor, title, htitle, body, hbody, s, hs, at', hat, -⟩, -⟩
    exact ⟨(exists_encodeU32 _).mp ⟨s, hs⟩, (exists_encodeU32 _).mp ⟨at', hat⟩,
      (exists_callsignBytes _).mp ⟨author, hauthor⟩, (exists_textBytes _).mp ⟨title, htitle⟩,
      (exists_textBytes _).mp ⟨body, hbody⟩⟩
  · rintro ⟨hs, hat, hauthor, htitle, hbody⟩
    obtain ⟨s, hs⟩ := (exists_encodeU32 "sequence").mpr hs
    obtain ⟨at', hat⟩ := (exists_encodeU32 "created_at").mpr hat
    obtain ⟨author, hauthor⟩ := (exists_callsignBytes "author").mpr hauthor
    obtain ⟨title, htitle⟩ := (exists_textBytes "title").mpr htitle
    obtain ⟨body, hbody⟩ := (exists_textBytes "body").mpr hbody
    have hlen := length_callsignBytes hauthor
    obtain ⟨-, -, -, hlen'⟩ := textBytes_eq_ok htitle
    obtain ⟨-, -, -, hlen''⟩ := textBytes_eq_ok hbody
    rw [maxCallsignLength] at hlen
    rw [maxBulletinTitleLength] at hlen'
    rw [maxBulletinBodyLength] at hlen''
    refine ⟨_, ⟨author, hauthor, title, htitle, body, hbody, s, hs, at', hat, _,
      prefixBytes_of_le (by omega), _, prefixBytes_of_le (by omega), _,
        prefixBytes_of_le (by omega),
      rfl⟩, ?_⟩
    obtain ⟨_, -, -, -, rfl⟩ := encodeU32_eq_ok hs
    obtain ⟨_, -, -, -, rfl⟩ := encodeU32_eq_ok hat
    simp only [List.length_append, length_toBigEndian, maxPayloadSize]
    omega

theorem encodable_end {last : End} (h : last.Valid) : Encodable (.end last) := by
  obtain ⟨hoperation, ⟨hcount, hcount'⟩, hnext, hnext'⟩ := h
  obtain ⟨count, hcounts⟩ := Int.eq_ofNat_of_zero_le hcount
  obtain ⟨next, hnexts⟩ := Int.eq_ofNat_of_zero_le hnext
  refine (encodable_iff fun _ => ProtocolObject.noConfusion).mpr ⟨[last.requestOperation.code] ++
    toBigEndian 1 count ++ toBigEndian 4 next ++ [if last.hasMore then 1 else 0], ?_, ?_⟩
  · show encodeEnd last = _
    rw [encodeEnd, raiseIf_of_not (not_not.mpr hoperation), ok_bind, encodeU8, encodeU32,
      integer_of_eq hcounts (by omega) fun hn => absurd hn Bool.false_ne_true,
      integer_of_eq hnexts (by omega) fun hn => absurd hn Bool.false_ne_true]
    rfl
  · simp [maxPayloadSize]

theorem encodable_error {error : Error} :
    Encodable (.error error) ↔ ValidText 0 maxErrorDetailLength error.detail := by
  rw [encodable_iff fun _ => ProtocolObject.noConfusion, ← exists_textBytes "detail"]
  show (∃ payload, encodeError error = .ok payload ∧ _) ↔ _
  simp only [encodeError, bind_eq_ok]
  constructor
  · rintro ⟨payload, ⟨detail, hdetail, -⟩, -⟩
    exact ⟨detail, hdetail⟩
  · rintro ⟨detail, hdetail⟩
    obtain ⟨-, -, -, hlen⟩ := textBytes_eq_ok hdetail
    rw [maxErrorDetailLength] at hlen
    refine ⟨_, ⟨detail, hdetail, _, prefixBytes_of_le (by omega), rfl⟩, ?_⟩
    simp only [List.length_append, length_toBigEndian, maxPayloadSize, List.length_cons,
      List.length_nil]
    omega

/-! ### Requests that were decoded -/

/-- The request decoder accepts no flags. -/
theorem decodeFrameWithFlags_of_decodeFrame {data : Bytes} {obj : ProtocolObject}
    (h : decodeFrame data = .ok obj) : decodeFrameWithFlags data = .ok (obj, 0) := by
  by_cases hselect : isGetMessageFrame data = true
  · rw [decodeFrame, if_pos hselect] at h
    rw [decodeFrameWithFlags, if_pos hselect, h]
    rfl
  · rw [decodeFrame, if_neg hselect] at h
    obtain ⟨⟨op, flags, payload⟩, hheader, h⟩ := bind_eq_ok.mp h
    have hheader' : decodeHeader data true = .ok (op, flags, payload) ∧ flags = 0 := by
      simp only [decodeHeader, bind_eq_ok, raiseIf_eq_ok, not_not] at hheader ⊢
      obtain ⟨u, hshort, u', hlong, u'', hversion, hheader⟩ := hheader
      split at hheader
      · cases hheader
      next operation hoperation =>
      simp only [bind_eq_ok, raiseIf_eq_ok, not_not, Bool.false_eq_true, if_false] at hheader
      obtain ⟨_, hmask, _, -, _, hlength, hheader⟩ := hheader
      have hzero : data.getD 2 0 = 0 := by
        have hall : ∀ n : Fin 256, UInt8.ofFin n &&& ~~~0 = UInt8.ofFin n := by decide +kernel
        exact (hall (data.getD 2 0).toFin).symm.trans hmask
      obtain ⟨hop, hflags, hpayload⟩ :=
        Prod.mk.inj (Except.ok.inj hheader) |>.imp_right Prod.mk.inj
      refine ⟨⟨u, hshort, u', hlong, u'', hversion, ?_⟩, by rw [← hflags, hzero]⟩
      simp only [hzero, bind_eq_ok, raiseIf_eq_ok, not_not]
      exact ⟨(), by simp, (), by simp, (), hlength, by rw [← hop, ← hflags, ← hpayload, hzero]; rfl⟩
    dsimp only at h
    rw [decodeFrameWithFlags, if_neg hselect, hheader'.1, hheader'.2, ok_bind]
    dsimp only
    rw [h]
    rfl

/-- A request that was decoded is encoded as the frame it came in. -/
theorem encodeFrame_of_decodeFrame {data : Bytes} {obj : ProtocolObject}
    (h : decodeFrame data = .ok obj)
    (hop : obj.operation ≠ .capabilities) : encodeFrame obj false = .ok data := by
  rcases decodeFrameWithFlags_cases (decodeFrameWithFlags_of_decodeFrame h) with
    ⟨value, rfl, -, hencode⟩ | ⟨payload, hdecode, hlen, -, -, rfl⟩
  · exact hencode
  · have hobj : ∀ value, obj ≠ .getMessage value := by
      rintro value rfl
      cases hdecode
    refine (encodeFrame_iff hobj hlen fun h => absurd h Bool.false_ne_true).mpr ?_
    exact (encodePayload_of_decodePayload hdecode).2.mpr fun h => hop h.1

/-- The cursor and the size of a page that was asked for. -/
theorem retrieval_of_encodePayload {since max : ℤ} {payload : Bytes}
    (h : encodeRetrieval since max = .ok payload) :
    0 ≤ since ∧ since ≤ 0xFFFFFFFF ∧ (minRetrievalMax : ℤ) ≤ max ∧ max ≤ maxRetrievalMax := by
  obtain ⟨s, m, rfl, rfl, hs, hmin, hmax, -⟩ := encodeRetrieval_eq_ok h
  exact ⟨Int.natCast_nonneg s, by omega, Int.ofNat_le.mpr hmin, Int.ofNat_le.mpr hmax⟩

theorem getNewMessages_of_decodeFrame {data : Bytes} {since max : ℤ}
    (h : decodeFrame data = .ok (.getNewMessages ⟨since, max⟩)) :
    0 ≤ since ∧ since ≤ 0xFFFFFFFF ∧ (minRetrievalMax : ℤ) ≤ max ∧ max ≤ maxRetrievalMax := by
  obtain ⟨payload, hpayload, -⟩ :=
    encodeFrame_eq_ok (fun _ => ProtocolObject.noConfusion) (encodeFrame_of_decodeFrame h nofun)
  exact retrieval_of_encodePayload hpayload

theorem getNewBulletins_of_decodeFrame {data : Bytes} {since max : ℤ}
    (h : decodeFrame data = .ok (.getNewBulletins ⟨since, max⟩)) :
    0 ≤ since ∧ since ≤ 0xFFFFFFFF ∧ (minRetrievalMax : ℤ) ≤ max ∧ max ≤ maxRetrievalMax := by
  obtain ⟨payload, hpayload, -⟩ :=
    encodeFrame_eq_ok (fun _ => ProtocolObject.noConfusion) (encodeFrame_of_decodeFrame h nofun)
  exact retrieval_of_encodePayload hpayload

theorem getBulletin_of_decodeFrame {data : Bytes} {sequence : ℤ}
    (h : decodeFrame data = .ok (.getBulletin ⟨sequence⟩)) : ValidU32 sequence := by
  obtain ⟨payload, hpayload, -⟩ :=
    encodeFrame_eq_ok (fun _ => ProtocolObject.noConfusion) (encodeFrame_of_decodeFrame h nofun)
  exact (exists_encodeU32 "sequence").mp ⟨payload, hpayload⟩

theorem getMessage_of_decodeFrame {data : Bytes} {request : GetMessage}
    (h : decodeFrame data = .ok (.getMessage request)) : ValidU32 request.conversationSequence := by
  have hencode : encodeGetMessageFrame request = .ok data := encodeFrame_of_decodeFrame h nofun
  simp only [encodeGetMessageFrame, bind_eq_ok, raiseIf_eq_ok, not_not] at hencode
  obtain ⟨peer, -, _, -, _, -, _, hrange, -⟩ := hencode
  exact hrange

end OpenQSP
