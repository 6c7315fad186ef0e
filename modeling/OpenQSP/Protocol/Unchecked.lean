import OpenQSP.Protocol.Failures

/-!
# Objects whose fields nothing has checked

The records of the protocol are built without a check: whatever a caller puts into a field is seen
first by the encoder, which tests the type of each field before its value. An unchecked object has
fields of any of the types that occur, and where they are of the declared types it is encoded like
the object itself.

What the encoder raises is a protocol error, with two exceptions, both of the point lookup: the flag
is refused by a plain `ValueError`, and a peer that is not ASCII raises the `UnicodeEncodeError` of
the conversion. The decoders raise nothing that their callers do not catch, and the limits of the
fields keep every payload below the limit of the frame.

## Main definitions

* `FieldValue`, `UncheckedObject`
* `UncheckedObject.encodePayload`, `encodeUnchecked`
* `ProtocolFailure` — the exception derives from `ProtocolError`

## Main results

* `encodeUnchecked_unchecked` — a typed object is encoded as before
* `UncheckedObject.length_encodePayload` — the payload fits the frame
* `codec_failures_iff`
-/

namespace OpenQSP

open Py

/-! ### Values of fields -/

/-- `value.to_bytes(width, "big")` -/
def toBytes (value width : ℕ) : Py Bytes := do
  raiseIf (256 ^ width ≤ value) ⟨.overflowError, "int too big to convert"⟩
  return toBigEndian width value

/-- An element of `bytes((...))`. -/
def singleByte (value : ℕ) : Py UInt8 := do
  raiseIf (256 ≤ value) ⟨.valueError, "bytes must be in range(0, 256)"⟩
  return UInt8.ofNat value

theorem toBytes_of_lt {value width : ℕ} (h : value < 256 ^ width) :
    toBytes value width = .ok (toBigEndian width value) := by
  rw [toBytes, raiseIf_of_not (Nat.not_le.mpr h)]
  rfl

theorem singleByte_of_lt {value : ℕ} (h : value < 256) : singleByte value =
    .ok (UInt8.ofNat value) := by
  rw [singleByte, raiseIf_of_not (Nat.not_le.mpr h)]
  rfl

/-- A value that is put into a field. The members of the enumerations are integers. -/
inductive FieldValue
  | int (value : ℤ)
  | str (value : Str)
  | bool (value : Bool)
  | operation (value : Operation)
  | errorCode (value : ErrorCode)
  deriving DecidableEq

namespace FieldValue

/-- `isinstance(value, int) and not isinstance(value, bool)` -/
def integer? : FieldValue → Option ℤ
  | int value => some value
  | operation value => some value.code.toNat
  | errorCode value => some value.code.toNat
  | _ => none

def integer (value : FieldValue) (bits : ℕ) (field : String) (nonzero : Bool) : Py ℕ :=
  match value.integer? with
  | none => .error (.invalidField (field ++ " must be an integer"))
  | some value => OpenQSP.integer value bits field nonzero

def encodeU8 (value : FieldValue) (field : String) (nonzero : Bool) : Py Bytes := do
  toBytes (← value.integer 8 field nonzero) 1

def encodeU32 (value : FieldValue) (field : String) (nonzero : Bool) : Py Bytes := do
  toBytes (← value.integer 32 field nonzero) 4

def textBytes (value : FieldValue) (field : String) (minimum maximum : ℕ) : Py Bytes :=
  match value with
  | str value => OpenQSP.textBytes value field minimum maximum
  | _ => .error (.invalidField (field ++ " must be text"))

def callsignBytes (value : FieldValue) (field : String) : Py Bytes :=
  match value with
  | str value => OpenQSP.callsignBytes value field
  | _ => .error (.invalidField (field ++ " must be text"))

end FieldValue

/-- The data behind its length byte. -/
def prefixUnchecked (data : Bytes) : Py Bytes := do
  return (← (FieldValue.int data.length).encodeU8 "length" false) ++ data

/-! ### Objects -/

/-- Any of the thirteen objects, with any values in its fields. -/
inductive UncheckedObject
  | sendMessage (createdAt recipient body : FieldValue)
  | getNewMessages (since max : FieldValue)
  | getNewBulletins (since max : FieldValue)
  | getBulletin (sequence : FieldValue)
  | getCapabilities
  | getMessage (peer conversationSequence : FieldValue)
  | message (sequence conversationSequence createdAt author recipient body : FieldValue)
  | bulletinHeader (sequence createdAt author title : FieldValue)
  | bulletin (sequence createdAt author title body : FieldValue)
  | end (requestOperation returnedCount nextSince hasMore : FieldValue)
  | stored
  | error (requestOperation errorCode detail : FieldValue)
  | capabilities (protocolVersion capabilities : FieldValue)
  deriving DecidableEq

/-- An object, its fields being of the declared types. -/
def ProtocolObject.unchecked : ProtocolObject → UncheckedObject
  | sendMessage value => .sendMessage (.int value.createdAt) (.str value.recipient)
      (.str value.body)
  | getNewMessages value => .getNewMessages (.int value.since) (.int value.max)
  | getNewBulletins value => .getNewBulletins (.int value.since) (.int value.max)
  | getBulletin value => .getBulletin (.int value.sequence)
  | getCapabilities => .getCapabilities
  | getMessage value => .getMessage (.str value.peer) (.int value.conversationSequence)
  | message value => .message (.int value.sequence) (.int value.conversationSequence)
    (.int value.createdAt) (.str value.author) (.str value.recipient) (.str value.body)
  | bulletinHeader value => .bulletinHeader (.int value.sequence) (.int value.createdAt)
    (.str value.author) (.str value.title)
  | bulletin value => .bulletin (.int value.sequence) (.int value.createdAt) (.str value.author)
    (.str value.title) (.str value.body)
  | «end» value => .end (.operation value.requestOperation) (.int value.returnedCount)
    (.int value.nextSince) (.bool value.hasMore)
  | stored => .stored
  | error value => .error (match value.requestOperation with
      | none => .int 0
      | some operation => .operation operation) (.errorCode value.errorCode) (.str value.detail)
  | capabilities value => .capabilities (.int value.protocolVersion) (.int value.capabilities)

def encodeUncheckedRetrieval (since max : FieldValue) : Py Bytes := do
  let maximum ← max.integer 8 "max" false
  raiseIf (¬(minRetrievalMax ≤ maximum ∧ maximum ≤ maxRetrievalMax)) (.invalidField retrievalText)
  return (← since.encodeU32 "since" false) ++ [← singleByte maximum]

def encodeUncheckedEnd (requestOperation returnedCount nextSince hasMore : FieldValue) : Py Bytes :=
  match requestOperation with
  | .operation operation => do
    raiseIf (¬operation.isRetrieval) (.invalidField endOperationText)
    match hasMore with
    | .bool hasMore =>
      return [operation.code] ++ (← returnedCount.encodeU8 "returned_count" false) ++
        (← nextSince.encodeU32 "next_since" false) ++ [if hasMore then 1 else 0]
    | _ => .error (.invalidField "has_more must be a bool")
  | _ => .error (.invalidField endOperationText)

/-- The zero of an undetermined operation is any integer zero; the members are not zero. -/
def uncheckedRequestOperation : FieldValue → Py UInt8
  | .int value =>
    if value = 0 then .ok 0
    else .error (.invalidField "request_operation must be zero or a known Operation")
  | .operation operation => .ok operation.code
  | _ => .error (.invalidField "request_operation must be zero or a known Operation")

def encodeUncheckedError (requestOperation errorCode detail : FieldValue) : Py Bytes := do
  let operationCode ← uncheckedRequestOperation requestOperation
  match errorCode with
  | .errorCode errorCode => do
    let detail ← detail.textBytes "detail" 0 maxErrorDetailLength
    return [operationCode, errorCode.code] ++ (← prefixUnchecked detail)
  | _ => .error (.invalidField "error_code must be a known ErrorCode")

namespace UncheckedObject

/-- The type of the object, as an entry of the table of encoders. -/
def operation : UncheckedObject → Operation
  | sendMessage _ _ _ => .sendMessage
  | getNewMessages _ _ => .getNewMessages
  | getNewBulletins _ _ => .getNewBulletins
  | getBulletin _ => .getBulletin
  | getCapabilities => .getCapabilities
  | getMessage _ _ => .getMessage
  | message _ _ _ _ _ _ => .message
  | bulletinHeader _ _ _ _ => .bulletinHeader
  | bulletin _ _ _ _ _ => .bulletin
  | «end» _ _ _ _ => .end
  | stored => .stored
  | error _ _ _ => .error
  | capabilities _ _ => .capabilities

def encodePayload : UncheckedObject → Py Bytes
  | sendMessage createdAt recipient body => do
    let recipient ← recipient.callsignBytes "recipient"
    let body ← body.textBytes "body" minMessageBodyLength maxMessageBodyLength
    return (← createdAt.encodeU32 "created_at" true) ++ (← prefixUnchecked recipient) ++
      (← prefixUnchecked body)
  | getNewMessages since max => encodeUncheckedRetrieval since max
  | getNewBulletins since max => encodeUncheckedRetrieval since max
  | getBulletin sequence => sequence.encodeU32 "sequence" true
  | getCapabilities => pure []
  | getMessage _ _ => .error ⟨.protocolEncodeError, "unsupported protocol object: GetMessage"⟩
  | message sequence conversationSequence createdAt author recipient body => do
    let author ← author.callsignBytes "author"
    let recipient ← recipient.callsignBytes "recipient"
    let body ← body.textBytes "body" minMessageBodyLength maxMessageBodyLength
    return (← sequence.encodeU32 "sequence" true) ++
      (← conversationSequence.encodeU32 "conversation_sequence" true) ++
      (← createdAt.encodeU32 "created_at" true) ++
      (← prefixUnchecked author) ++ (← prefixUnchecked recipient) ++ (← prefixUnchecked body)
  | bulletinHeader sequence createdAt author title => do
    let author ← author.callsignBytes "author"
    let title ← title.textBytes "title" minBulletinTitleLength maxBulletinTitleLength
    return (← sequence.encodeU32 "sequence" true) ++ (← createdAt.encodeU32 "created_at" true) ++
      (← prefixUnchecked author) ++ (← prefixUnchecked title)
  | bulletin sequence createdAt author title body => do
    let author ← author.callsignBytes "author"
    let title ← title.textBytes "title" minBulletinTitleLength maxBulletinTitleLength
    let body ← body.textBytes "body" minBulletinBodyLength maxBulletinBodyLength
    return (← sequence.encodeU32 "sequence" true) ++ (← createdAt.encodeU32 "created_at" true) ++
      (← prefixUnchecked author) ++ (← prefixUnchecked title) ++ (← prefixUnchecked body)
  | «end» requestOperation returnedCount nextSince hasMore =>
    encodeUncheckedEnd requestOperation returnedCount nextSince hasMore
  | stored => pure []
  | error requestOperation errorCode detail =>
      encodeUncheckedError requestOperation errorCode detail
  | capabilities version services => do
    return (← version.encodeU8 "protocol_version" true) ++
      (← services.encodeU32 "capabilities" false)

end UncheckedObject

def lookupSequenceText : String := "conversation_sequence must be a non-zero unsigned 32-bit value"

def encodeUncheckedGetMessage (peer conversationSequence : FieldValue) : Py Bytes :=
  match peer with
  | .str peer => do
    let encoded ← encodeAscii peer
    raiseIf (¬(minCallsignLength ≤ encoded.length ∧ encoded.length ≤ maxCallsignLength))
      (.invalidField "peer has invalid callsign length")
    raiseIf (¬isNormalizedPeer peer) (.invalidField normalizedPeerText)
    match conversationSequence.integer? with
    | none => .error (.invalidField lookupSequenceText)
    | some sequence => do
      raiseIf (¬(1 ≤ sequence ∧ sequence ≤ 0xFFFFFFFF)) (.invalidField lookupSequenceText)
      let payload := [← singleByte encoded.length] ++ encoded ++ (← toBytes sequence.toNat 4)
      return [protocolVersion, Operation.getMessage.code, 0, ← singleByte payload.length] ++ payload
  | _ => .error (.invalidField "peer must be text")

/-- `encode_frame`, for objects whose fields are of any type. -/
def encodeUnchecked (obj : UncheckedObject) (unsolicited : Bool) : Py Bytes :=
  match obj with
  | .getMessage peer conversationSequence =>
    if unsolicited then .error ⟨.valueError, "UNSOLICITED is invalid for GET_MESSAGE"⟩
    else encodeUncheckedGetMessage peer conversationSequence
  | obj => do
    raiseIf (unsolicited ∧ ¬obj.operation.maybeUnsolicited) ⟨.protocolEncodeError, unsolicitedText⟩
    let payload ← obj.encodePayload
    raiseIf (maxPayloadSize < payload.length)
      ⟨.protocolEncodeError, "payload exceeds the version 0.1 maximum size"⟩
    let flags := if unsolicited then unsolicitedFlag else 0
    return [protocolVersion, obj.operation.code, flags, ← singleByte payload.length] ++ payload

namespace FieldValue

theorem lt_of_integer {value : FieldValue} {bits n : ℕ} {field : String} {nonzero : Bool}
    (h : value.integer bits field nonzero = .ok n) : n < 2 ^ bits := by
  rw [integer] at h
  split at h
  · exact nomatch h
  · exact (integer_eq_ok h).2.1

end FieldValue

/-! ### Typed objects -/

namespace FieldValue

variable (n : ℤ) (field : String) (nonzero : Bool)

/-- An integer that passed its check is not too big to be written. -/
theorem encodeU8_int : (int n).encodeU8 field nonzero = OpenQSP.encodeU8 n field nonzero := by
  rw [encodeU8, OpenQSP.encodeU8]
  show (OpenQSP.integer n 8 field nonzero >>= fun n => toBytes n 1) = _
  cases h : OpenQSP.integer n 8 field nonzero with
  | error e => rfl
  | ok m => exact toBytes_of_lt (integer_eq_ok h).2.1

theorem encodeU32_int : (int n).encodeU32 field nonzero = OpenQSP.encodeU32 n field nonzero := by
  rw [encodeU32, OpenQSP.encodeU32]
  show (OpenQSP.integer n 32 field nonzero >>= fun n => toBytes n 4) = _
  cases h : OpenQSP.integer n 32 field nonzero with
  | error e => rfl
  | ok m => exact toBytes_of_lt (integer_eq_ok h).2.1

end FieldValue

theorem prefixUnchecked_eq (data : Bytes) : prefixUnchecked data = prefixBytes data := by
  rw [prefixUnchecked, prefixBytes, FieldValue.encodeU8_int]

theorem encodeUncheckedRetrieval_int (since max : ℤ) :
    encodeUncheckedRetrieval (.int since) (.int max) = encodeRetrieval since max := by
  rw [encodeUncheckedRetrieval, encodeRetrieval, FieldValue.encodeU32_int]
  show (integer max 8 "max" false >>= _) = _
  cases h : integer max 8 "max" false with
  | error e => rfl
  | ok n =>
    have hbyte := singleByte_of_lt (integer_eq_ok h).2.1
    simp only [ok_bind, hbyte]

/-- What follows a check is only reached when the check passed. -/
theorem raiseIf_bind_congr {α : Type} {p : Prop} [Decidable p] {e : PyError} {f g : Unit → Py α}
    (h : ¬p → f () = g ()) : (raiseIf p e >>= f) = (raiseIf p e >>= g) := by
  by_cases hp : p
  · rw [raiseIf, if_pos hp]
    rfl
  · rw [raiseIf_of_not hp]
    exact h hp

/-- A peer that passed the checks is short enough for its length byte. -/
theorem encodeUncheckedGetMessage_typed (value : GetMessage) :
    encodeUncheckedGetMessage (.str value.peer) (.int value.conversationSequence) =
      encodeGetMessageFrame value := by
  show (encodeAscii value.peer >>= _) = (encodeAscii value.peer >>= _)
  cases encodeAscii value.peer with
  | error e => rfl
  | ok encoded =>
    refine raiseIf_bind_congr fun hlength => raiseIf_bind_congr fun _ =>
      raiseIf_bind_congr fun hsequence => ?_
    rw [not_not] at hlength hsequence
    have hmax := hlength.2
    rw [maxCallsignLength] at hmax
    have hpeer : singleByte encoded.length = .ok (UInt8.ofNat encoded.length) :=
      singleByte_of_lt (by omega)
    have hbytes : toBytes value.conversationSequence.toNat 4 =
        .ok (toBigEndian 4 value.conversationSequence.toNat) := toBytes_of_lt (by omega)
    have hpayload : singleByte ([UInt8.ofNat encoded.length] ++ encoded ++
        toBigEndian 4 value.conversationSequence.toNat).length = .ok (UInt8.ofNat
          ([UInt8.ofNat encoded.length] ++ encoded ++
            toBigEndian 4 value.conversationSequence.toNat).length) := by
      refine singleByte_of_lt ?_
      rw [List.length_append, List.length_append, length_toBigEndian, List.length_singleton]
      omega
    simp only [hpeer, hbytes, ok_bind, hpayload]

theorem UncheckedObject.encodePayload_unchecked (obj : ProtocolObject) :
    obj.unchecked.encodePayload = OpenQSP.encodePayload obj := by
  cases obj with
  | getNewMessages value => exact encodeUncheckedRetrieval_int value.since value.max
  | getNewBulletins value => exact encodeUncheckedRetrieval_int value.since value.max
  | error value =>
    obtain ⟨requestOperation, errorCode, detail⟩ := value
    cases requestOperation with
    | none =>
      simp only [ProtocolObject.unchecked, encodePayload, encodeUncheckedError, prefixUnchecked_eq]
      rfl
    | some operation =>
      simp only [ProtocolObject.unchecked, encodePayload, encodeUncheckedError, prefixUnchecked_eq]
      rfl
  | «end» value =>
    simp only [ProtocolObject.unchecked, encodePayload, encodeUncheckedEnd, FieldValue.encodeU8_int,
      FieldValue.encodeU32_int]
    rfl
  | _ =>
    simp only [ProtocolObject.unchecked, encodePayload, FieldValue.encodeU8_int,
      FieldValue.encodeU32_int,
      prefixUnchecked_eq]
    rfl

/-- Every object but the point lookup is encoded by the table. -/
theorem encodeUnchecked_eq {obj : UncheckedObject} {unsolicited : Bool}
    (hobj : ∀ peer conversationSequence, obj ≠ .getMessage peer conversationSequence) :
    encodeUnchecked obj unsolicited = (do
      raiseIf (unsolicited ∧ ¬obj.operation.maybeUnsolicited) ⟨.protocolEncodeError,
        unsolicitedText⟩
      let payload ← obj.encodePayload
      raiseIf (maxPayloadSize < payload.length)
        ⟨.protocolEncodeError, "payload exceeds the version 0.1 maximum size"⟩
      let flags := if unsolicited then unsolicitedFlag else 0
      return [protocolVersion, obj.operation.code, flags, ← singleByte payload.length] ++
        payload) := by
  cases obj with
  | getMessage peer conversationSequence => exact absurd rfl (hobj peer conversationSequence)
  | _ => rfl

/-! ### What is raised -/

/-- The exception derives from `ProtocolError`. -/
def ProtocolFailure (e : PyError) : Prop :=
  e.isA .protocolDecodeError ∨ e.isA .protocolEncodeError ∨ e.isA .invalidFieldError

instance (e : PyError) : Decidable (ProtocolFailure e) :=
  inferInstanceAs (Decidable (e.isA .protocolDecodeError ∨ e.isA .protocolEncodeError ∨
    e.isA .invalidFieldError))

theorem ProtocolFailure.invalidField (text : String) : ProtocolFailure (.invalidField text) :=
  .inr (.inr rfl)

theorem ProtocolFailure.protocolEncode (text : String) :
    ProtocolFailure ⟨.protocolEncodeError, text⟩ :=
  .inr (.inl rfl)

section Fields

open Raises

variable (value : FieldValue) (field : String)

theorem integer_raisesProtocolFailure (n : ℤ) (bits : ℕ) (nonzero : Bool) :
    Raises ProtocolFailure (integer n bits field nonzero) := ite (ok _) (error (.invalidField _))

theorem FieldValue.integer_raises (bits : ℕ) (nonzero : Bool) :
    Raises ProtocolFailure (value.integer bits field nonzero) := by
  rw [FieldValue.integer]
  split
  · exact error (.invalidField _)
  · exact integer_raisesProtocolFailure _ _ _ _

theorem FieldValue.encodeU8_raises (nonzero : Bool) :
    Raises ProtocolFailure (value.encodeU8 field nonzero) := by
  refine (value.integer_raises field 8 nonzero).bind_of fun n hn => ?_
  rw [toBytes_of_lt (lt_of_integer hn)]
  exact ok _

theorem FieldValue.encodeU32_raises (nonzero : Bool) :
    Raises ProtocolFailure (value.encodeU32 field nonzero) := by
  refine (value.integer_raises field 32 nonzero).bind_of fun n hn => ?_
  rw [toBytes_of_lt (lt_of_integer hn)]
  exact ok _

theorem textBytes_raisesProtocolFailure (text : Str) (minimum maximum : ℕ) :
    Raises ProtocolFailure (textBytes text field minimum maximum) := by
  rw [textBytes]
  split
  · exact error (.invalidField _)
  · exact ite (error (.invalidField _)) (ite (error (.inr (.inr rfl)))
      (ite (error (.invalidField _)) (ok _)))

theorem FieldValue.textBytes_raises (minimum maximum : ℕ) :
    Raises ProtocolFailure (value.textBytes field minimum maximum) := by
  cases value with
  | str text => exact textBytes_raisesProtocolFailure field text minimum maximum
  | _ => exact error (.invalidField _)

theorem FieldValue.callsignBytes_raises : Raises ProtocolFailure (value.callsignBytes field) := by
  cases value with
  | str text =>
    exact (textBytes_raisesProtocolFailure field text _ _).bind fun _ =>
      (check (.invalidField _)).bind fun _ => (check (.invalidField _)).bind fun _ => ok _
  | _ => exact error (.invalidField _)

theorem prefixUnchecked_raises (data : Bytes) : Raises ProtocolFailure (prefixUnchecked data) :=
  (FieldValue.encodeU8_raises _ _ _).bind fun _ => ok _

end Fields

section Objects

open Raises FieldValue

theorem encodeUncheckedRetrieval_raises (since max : FieldValue) :
    Raises ProtocolFailure (encodeUncheckedRetrieval since max) := by
  refine (integer_raises max _ _ _).bind_of fun n hn => (check (.invalidField _)).bind fun _ =>
    (encodeU32_raises since _ _).bind fun _ => ?_
  rw [singleByte_of_lt (lt_of_integer hn)]
  exact ok _

theorem encodeUncheckedEnd_raises (requestOperation returnedCount nextSince hasMore : FieldValue) :
    Raises ProtocolFailure (encodeUncheckedEnd requestOperation returnedCount nextSince
      hasMore) := by
  cases requestOperation with
  | operation operation =>
    refine (check (.invalidField _)).bind fun _ => ?_
    cases hasMore with
    | bool hasMore =>
      exact (encodeU8_raises returnedCount _ _).bind fun _ =>
        (encodeU32_raises nextSince _ _).bind fun _ => ok _
    | _ => exact error (.invalidField _)
  | _ => exact error (.invalidField _)

theorem encodeUncheckedError_raises (requestOperation errorCode detail : FieldValue) :
    Raises ProtocolFailure (encodeUncheckedError requestOperation errorCode detail) := by
  have hoperation : Raises ProtocolFailure (uncheckedRequestOperation requestOperation) := by
    cases requestOperation with
    | int value => exact ite (ok _) (error (.invalidField _))
    | operation operation => exact ok _
    | _ => exact error (.invalidField _)
  refine hoperation.bind fun _ => ?_
  cases errorCode with
  | errorCode errorCode =>
    exact (textBytes_raises detail _ _ _).bind fun _ =>
      (prefixUnchecked_raises _).bind fun _ => ok _
  | _ => exact error (.invalidField _)

theorem UncheckedObject.encodePayload_raises (obj : UncheckedObject) :
    Raises ProtocolFailure obj.encodePayload := by
  cases obj with
  | sendMessage createdAt recipient body =>
    exact (callsignBytes_raises recipient _).bind fun _ =>
      (textBytes_raises body _ _ _).bind fun _ =>
      (encodeU32_raises createdAt _ _).bind fun _ => (prefixUnchecked_raises _).bind fun _ =>
      (prefixUnchecked_raises _).bind fun _ => ok _
  | getNewMessages since max => exact encodeUncheckedRetrieval_raises since max
  | getNewBulletins since max => exact encodeUncheckedRetrieval_raises since max
  | getBulletin sequence => exact encodeU32_raises sequence _ _
  | getCapabilities => exact ok _
  | getMessage peer conversationSequence => exact Raises.error (.protocolEncode _)
  | message sequence conversationSequence createdAt author recipient body =>
    exact (callsignBytes_raises author _).bind fun _ =>
      (callsignBytes_raises recipient _).bind fun _ =>
      (textBytes_raises body _ _ _).bind fun _ => (encodeU32_raises sequence _ _).bind fun _ =>
      (encodeU32_raises conversationSequence _ _).bind fun _ =>
      (encodeU32_raises createdAt _ _).bind fun _ => (prefixUnchecked_raises _).bind fun _ =>
      (prefixUnchecked_raises _).bind fun _ => (prefixUnchecked_raises _).bind fun _ => ok _
  | bulletinHeader sequence createdAt author title =>
    exact (callsignBytes_raises author _).bind fun _ => (textBytes_raises title _ _ _).bind fun _ =>
      (encodeU32_raises sequence _ _).bind fun _ => (encodeU32_raises createdAt _ _).bind fun _ =>
      (prefixUnchecked_raises _).bind fun _ => (prefixUnchecked_raises _).bind fun _ => ok _
  | bulletin sequence createdAt author title body =>
    exact (callsignBytes_raises author _).bind fun _ => (textBytes_raises title _ _ _).bind fun _ =>
      (textBytes_raises body _ _ _).bind fun _ => (encodeU32_raises sequence _ _).bind fun _ =>
      (encodeU32_raises createdAt _ _).bind fun _ => (prefixUnchecked_raises _).bind fun _ =>
      (prefixUnchecked_raises _).bind fun _ => (prefixUnchecked_raises _).bind fun _ => ok _
  | «end» requestOperation returnedCount nextSince hasMore =>
    exact encodeUncheckedEnd_raises requestOperation returnedCount nextSince hasMore
  | stored => exact ok _
  | error requestOperation errorCode detail =>
    exact encodeUncheckedError_raises requestOperation errorCode detail
  | capabilities version services =>
    exact (encodeU8_raises version _ _).bind fun _ =>
      (encodeU32_raises services _ _).bind fun _ => ok _

end Objects

/-! ### The size of a payload -/

namespace FieldValue

theorem length_callsignBytes {value : FieldValue} {field : String} {data : Bytes}
    (h : value.callsignBytes field = .ok data) : data.length ≤ maxCallsignLength := by
  cases value with
  | str text => exact OpenQSP.length_callsignBytes h
  | _ => exact nomatch h

theorem length_textBytes {value : FieldValue} {field : String} {minimum maximum : ℕ} {data : Bytes}
    (h : value.textBytes field minimum maximum = .ok data) : data.length ≤ maximum := by
  cases value with
  | str text => exact (textBytes_eq_ok h).2.2.2
  | _ => exact nomatch h

theorem length_of_toBytes {value width : ℕ} {data : Bytes} (h : toBytes value width = .ok data) :
    data.length = width := by
  obtain ⟨-, -, h⟩ := bind_eq_ok.mp h
  obtain rfl := Except.ok.inj h
  exact length_toBigEndian width value

theorem length_encodeU8 {value : FieldValue} {field : String} {nonzero : Bool} {data : Bytes}
    (h : value.encodeU8 field nonzero = .ok data) : data.length = 1 := by
  obtain ⟨n, -, h⟩ := bind_eq_ok.mp h
  exact length_of_toBytes h

theorem length_encodeU32 {value : FieldValue} {field : String} {nonzero : Bool} {data : Bytes}
    (h : value.encodeU32 field nonzero = .ok data) : data.length = 4 := by
  obtain ⟨n, -, h⟩ := bind_eq_ok.mp h
  exact length_of_toBytes h

end FieldValue

theorem length_prefixUnchecked {data encoded : Bytes} (h : prefixUnchecked data = .ok encoded) :
    encoded.length = data.length + 1 := by
  obtain ⟨size, hsize, h⟩ := bind_eq_ok.mp h
  obtain rfl := Except.ok.inj h
  rw [List.length_append, FieldValue.length_encodeU8 hsize, Nat.add_comm]

theorem length_encodeUncheckedRetrieval {since max : FieldValue} {payload : Bytes}
    (h : encodeUncheckedRetrieval since max = .ok payload) : payload.length ≤ maxPayloadSize := by
  obtain ⟨maximum, -, h⟩ := bind_eq_ok.mp h
  obtain ⟨-, -, h⟩ := bind_eq_ok.mp h
  obtain ⟨s, hs, h⟩ := bind_eq_ok.mp h
  obtain ⟨m, -, h⟩ := bind_eq_ok.mp h
  obtain rfl := Except.ok.inj h
  rw [List.length_append, FieldValue.length_encodeU32 hs, List.length_singleton]
  decide

theorem length_encodeUncheckedEnd {requestOperation returnedCount nextSince hasMore : FieldValue}
    {payload : Bytes} (h : encodeUncheckedEnd requestOperation returnedCount nextSince hasMore =
      .ok payload) :
    payload.length ≤ maxPayloadSize := by
  cases requestOperation with
  | operation operation =>
    obtain ⟨-, -, h⟩ := bind_eq_ok.mp h
    cases hasMore with
    | bool hasMore =>
      obtain ⟨count, hcount, h⟩ := bind_eq_ok.mp h
      obtain ⟨next, hnext, h⟩ := bind_eq_ok.mp h
      obtain rfl := Except.ok.inj h
      simp only [List.length_append, FieldValue.length_encodeU8 hcount,
        FieldValue.length_encodeU32 hnext,
        List.length_singleton]
      decide
    | _ => exact nomatch h
  | _ => exact nomatch h

theorem length_encodeUncheckedError {requestOperation errorCode detail : FieldValue}
    {payload : Bytes}
    (h : encodeUncheckedError requestOperation errorCode detail = .ok payload) :
    payload.length ≤ maxPayloadSize := by
  obtain ⟨operationCode, -, h⟩ := bind_eq_ok.mp h
  cases errorCode with
  | errorCode errorCode =>
    obtain ⟨detail, hdetail, h⟩ := bind_eq_ok.mp h
    obtain ⟨p, hp, h⟩ := bind_eq_ok.mp h
    obtain rfl := Except.ok.inj h
    have := FieldValue.length_textBytes hdetail
    have hlimit : maxErrorDetailLength = 64 := rfl
    have hpayload : maxPayloadSize = 255 := rfl
    rw [List.length_append, length_prefixUnchecked hp, List.length_cons, List.length_singleton]
    omega
  | _ => exact nomatch h

open FieldValue in
/-- The limits of the fields add up to less than the limit of a payload. -/
theorem UncheckedObject.length_encodePayload {obj : UncheckedObject} {payload : Bytes}
    (h : obj.encodePayload = .ok payload) : payload.length ≤ maxPayloadSize := by
  have hcallsign : maxCallsignLength = 12 := rfl
  have hmessage : maxMessageBodyLength = 208 := rfl
  have htitle : maxBulletinTitleLength = 64 := rfl
  have hbulletin : maxBulletinBodyLength = 164 := rfl
  have hdetail : maxErrorDetailLength = 64 := rfl
  have hpayload : maxPayloadSize = 255 := rfl
  cases obj with
  | sendMessage createdAt recipient body =>
    obtain ⟨recipient, hrecipient, h⟩ := bind_eq_ok.mp h
    obtain ⟨body, hbody, h⟩ := bind_eq_ok.mp h
    obtain ⟨at', hat, h⟩ := bind_eq_ok.mp h
    obtain ⟨p, hp, h⟩ := bind_eq_ok.mp h
    obtain ⟨q, hq, h⟩ := bind_eq_ok.mp h
    obtain rfl := Except.ok.inj h
    have := FieldValue.length_callsignBytes hrecipient
    have := length_textBytes hbody
    rw [List.length_append, List.length_append, length_encodeU32 hat, length_prefixUnchecked hp,
      length_prefixUnchecked hq]
    omega
  | getNewMessages since max => exact length_encodeUncheckedRetrieval h
  | getNewBulletins since max => exact length_encodeUncheckedRetrieval h
  | getBulletin sequence =>
    rw [length_encodeU32 h]
    omega
  | getCapabilities =>
    obtain rfl := Except.ok.inj h
    exact Nat.zero_le _
  | getMessage peer conversationSequence => exact nomatch h
  | message sequence conversationSequence createdAt author recipient body =>
    obtain ⟨author, hauthor, h⟩ := bind_eq_ok.mp h
    obtain ⟨recipient, hrecipient, h⟩ := bind_eq_ok.mp h
    obtain ⟨body, hbody, h⟩ := bind_eq_ok.mp h
    obtain ⟨s, hs, h⟩ := bind_eq_ok.mp h
    obtain ⟨c, hc, h⟩ := bind_eq_ok.mp h
    obtain ⟨at', hat, h⟩ := bind_eq_ok.mp h
    obtain ⟨p, hp, h⟩ := bind_eq_ok.mp h
    obtain ⟨q, hq, h⟩ := bind_eq_ok.mp h
    obtain ⟨r, hr, h⟩ := bind_eq_ok.mp h
    obtain rfl := Except.ok.inj h
    have := FieldValue.length_callsignBytes hauthor
    have := FieldValue.length_callsignBytes hrecipient
    have := length_textBytes hbody
    simp only [List.length_append, length_encodeU32 hs, length_encodeU32 hc, length_encodeU32 hat,
      length_prefixUnchecked hp, length_prefixUnchecked hq, length_prefixUnchecked hr]
    omega
  | bulletinHeader sequence createdAt author title =>
    obtain ⟨author, hauthor, h⟩ := bind_eq_ok.mp h
    obtain ⟨title, htitle', h⟩ := bind_eq_ok.mp h
    obtain ⟨s, hs, h⟩ := bind_eq_ok.mp h
    obtain ⟨at', hat, h⟩ := bind_eq_ok.mp h
    obtain ⟨p, hp, h⟩ := bind_eq_ok.mp h
    obtain ⟨q, hq, h⟩ := bind_eq_ok.mp h
    obtain rfl := Except.ok.inj h
    have := FieldValue.length_callsignBytes hauthor
    have := length_textBytes htitle'
    simp only [List.length_append, length_encodeU32 hs, length_encodeU32 hat,
      length_prefixUnchecked hp, length_prefixUnchecked hq]
    omega
  | bulletin sequence createdAt author title body =>
    obtain ⟨author, hauthor, h⟩ := bind_eq_ok.mp h
    obtain ⟨title, htitle', h⟩ := bind_eq_ok.mp h
    obtain ⟨body, hbody, h⟩ := bind_eq_ok.mp h
    obtain ⟨s, hs, h⟩ := bind_eq_ok.mp h
    obtain ⟨at', hat, h⟩ := bind_eq_ok.mp h
    obtain ⟨p, hp, h⟩ := bind_eq_ok.mp h
    obtain ⟨q, hq, h⟩ := bind_eq_ok.mp h
    obtain ⟨r, hr, h⟩ := bind_eq_ok.mp h
    obtain rfl := Except.ok.inj h
    have := FieldValue.length_callsignBytes hauthor
    have := length_textBytes htitle'
    have := length_textBytes hbody
    simp only [List.length_append, length_encodeU32 hs, length_encodeU32 hat,
      length_prefixUnchecked hp, length_prefixUnchecked hq, length_prefixUnchecked hr]
    omega
  | «end» requestOperation returnedCount nextSince hasMore =>
    exact length_encodeUncheckedEnd h
  | stored =>
    obtain rfl := Except.ok.inj h
    exact Nat.zero_le _
  | error requestOperation errorCode detail => exact length_encodeUncheckedError h
  | capabilities version services =>
    obtain ⟨v, hv, h⟩ := bind_eq_ok.mp h
    obtain ⟨c, hc, h⟩ := bind_eq_ok.mp h
    obtain rfl := Except.ok.inj h
    rw [List.length_append, length_encodeU8 hv, length_encodeU32 hc]
    omega

theorem encodeFrame_eq {obj : ProtocolObject} {unsolicited : Bool} (hobj : ∀ value,
    obj ≠ .getMessage value) :
    encodeFrame obj unsolicited = (do
      raiseIf (unsolicited ∧ ¬obj.operation.maybeUnsolicited) ⟨.protocolEncodeError,
        unsolicitedText⟩
      let payload ← encodePayload obj
      raiseIf (maxPayloadSize < payload.length)
        ⟨.protocolEncodeError, "payload exceeds the version 0.1 maximum size"⟩
      let flags := if unsolicited then unsolicitedFlag else 0
      return [protocolVersion, obj.operation.code, flags, UInt8.ofNat payload.length] ++
        payload) := by
  cases obj with
  | getMessage value => exact absurd rfl (hobj value)
  | _ => rfl

/-- Where the fields are of the declared types, the encoder is that of the typed objects. -/
theorem encodeUnchecked_unchecked (obj : ProtocolObject) (unsolicited : Bool) :
    encodeUnchecked obj.unchecked unsolicited = encodeFrame obj unsolicited := by
  by_cases hobj : ∃ value, obj = .getMessage value
  · obtain ⟨value, rfl⟩ := hobj
    show (if unsolicited then _ else _) = (if unsolicited then _ else _)
    rw [encodeUncheckedGetMessage_typed]
  · have hunchecked : ∀ peer conversationSequence,
        obj.unchecked ≠ .getMessage peer conversationSequence := by
      intro peer conversationSequence h
      cases obj with
      | getMessage value => exact hobj ⟨value, rfl⟩
      | _ => exact nomatch h
    have hoperation : obj.unchecked.operation = obj.operation := by
      cases obj with
      | _ => rfl
    rw [encodeUnchecked_eq hunchecked, UncheckedObject.encodePayload_unchecked, hoperation,
      encodeFrame_eq fun value hvalue => hobj ⟨value, hvalue⟩]
    refine bind_congr fun _ => ?_
    cases encodePayload obj with
    | error e => rfl
    | ok payload =>
      refine raiseIf_bind_congr fun hlength => ?_
      rw [maxPayloadSize, Nat.not_lt] at hlength
      have hbyte := singleByte_of_lt (Nat.lt_succ_of_le hlength)
      simp only [hbyte]
      rfl

/-! ### Every object -/

/-- The request is not a flagged point lookup, nor one for a peer that is not ASCII. -/
def UncheckedObject.PlainLookup : UncheckedObject → Bool → Prop
  | getMessage peer _, unsolicited =>
    unsolicited = false ∧ ∀ text, peer = .str text → text.all (·.code < 128)
  | _, _ => True

theorem encodeUncheckedGetMessage_raises {peer : FieldValue} (conversationSequence : FieldValue)
    (h : ∀ text, peer = .str text → text.all (·.code < 128)) :
    Raises ProtocolFailure (encodeUncheckedGetMessage peer conversationSequence) := by
  cases peer with
  | str text =>
    have hascii : encodeAscii text = .ok (text.map fun c => UInt8.ofNat c.code) :=
      if_pos (h text rfl)
    rw [encodeUncheckedGetMessage, hascii, ok_bind]
    refine Raises.bind_of (.check (.invalidField _)) fun _ hlength =>
      Raises.bind (.check (.invalidField _)) fun _ => ?_
    rw [raiseIf_eq_ok, not_not] at hlength
    split
    · exact .error (.invalidField _)
    · refine Raises.bind_of (.check (.invalidField _)) fun _ hsequence => ?_
      rw [raiseIf_eq_ok, not_not] at hsequence
      have hmax := hlength.2
      rw [maxCallsignLength] at hmax
      rw [singleByte_of_lt (by omega), ok_bind, toBytes_of_lt (by omega), ok_bind]
      dsimp only
      rw [singleByte_of_lt]
      · exact .ok _
      · rw [List.length_append, List.length_append, length_toBigEndian, List.length_singleton]
        omega
  | _ => exact .error (.invalidField _)

theorem encodeUnchecked_raises_iff (obj : UncheckedObject) (unsolicited : Bool) :
    Raises ProtocolFailure (encodeUnchecked obj unsolicited) ↔ obj.PlainLookup unsolicited := by
  by_cases hobj : ∃ peer conversationSequence, obj = .getMessage peer conversationSequence
  · obtain ⟨peer, conversationSequence, rfl⟩ := hobj
    constructor
    · intro h
      cases unsolicited with
      | true => exact absurd (h _ rfl) (by decide)
      | false =>
        refine ⟨rfl, ?_⟩
        rintro text rfl
        by_contra hascii
        have hraised : encodeAscii text = .error ⟨.unicodeEncodeError,
          "ordinal not in range(128)"⟩ :=
          if_neg hascii
        refine absurd (h ⟨.unicodeEncodeError, "ordinal not in range(128)"⟩ ?_) (by decide)
        show (encodeAscii text >>= _) = _
        rw [hraised]
        rfl
    · rintro ⟨rfl, h⟩
      exact encodeUncheckedGetMessage_raises conversationSequence h
  · have hplain : obj.PlainLookup unsolicited := by
      cases obj with
      | getMessage peer conversationSequence => exact absurd ⟨peer, conversationSequence, rfl⟩ hobj
      | _ => trivial
    refine iff_of_true ?_ hplain
    rw [encodeUnchecked_eq fun peer sequence h => hobj ⟨peer, sequence, h⟩]
    refine Raises.bind (.check (.protocolEncode _)) fun _ =>
      Raises.bind_of obj.encodePayload_raises fun payload hpayload => ?_
    have hlength := UncheckedObject.length_encodePayload hpayload
    rw [raiseIf_of_not (Nat.not_lt.mpr hlength), ok_bind]
    dsimp only
    rw [maxPayloadSize] at hlength
    rw [singleByte_of_lt (Nat.lt_succ_of_le hlength)]
    exact .ok _

/-- The decoder that keeps the flags raises refusals as well. -/
theorem decodeFrameWithFlags_raisesRefusal (data : Bytes) :
    Raises Refusal (decodeFrameWithFlags data) := by
  by_cases hselect : isGetMessageFrame data = true
  · rw [decodeFrameWithFlags, if_pos hselect]
    exact (decodeGetMessageFrame_raisesRefusal data).bind fun _ => .ok _
  · rw [decodeFrameWithFlags, if_neg hselect]
    refine (decodeHeader_raisesRefusal data true).bind_of fun decoded hheader => ?_
    obtain ⟨op, flags, payload⟩ := decoded
    refine (decodePayload_raisesRefusal ?_ payload).bind fun _ => .ok _
    rintro rfl
    exact hselect (isGetMessageFrame_of_decodeHeader hheader)

/-- What the decoders raise is caught where a frame is handled. -/
def DecodeFailure (e : PyError) : Prop := e.isA .protocolDecodeError ∨ e.isA .invalidFieldError

/-- The codec fails with protocol errors only, and never because of the size of a payload, unless
the object is a point lookup that is flagged or whose peer is not ASCII. -/
theorem codec_failures_iff (obj : UncheckedObject) (unsolicited : Bool) :
    (Raises ProtocolFailure (encodeUnchecked obj unsolicited) ∧
      (∀ payload, obj.encodePayload = .ok payload → payload.length ≤ maxPayloadSize) ∧
      ∀ data, Raises DecodeFailure (decodeFrame data) ∧
        Raises DecodeFailure (decodeFrameWithFlags data)) ↔ obj.PlainLookup unsolicited := by
  rw [encodeUnchecked_raises_iff]
  refine and_iff_left ⟨fun _ => UncheckedObject.length_encodePayload, fun data => ⟨fun e he => ?_,
    fun e he => ?_⟩⟩
  · exact (decodeFrame_raisesRefusal data e he).caught
  · exact (decodeFrameWithFlags_raisesRefusal data e he).caught

/-- A lookup for `É1ABC` raises the error of the conversion to ASCII. -/
theorem codec_failures_accent : ¬∀ (obj : UncheckedObject) (unsolicited : Bool),
    Raises ProtocolFailure (encodeUnchecked obj unsolicited) := by
  intro h
  have hraised : encodeUnchecked (.getMessage (.str (str "É1ABC")) (.int 1)) false =
      .error ⟨.unicodeEncodeError, "ordinal not in range(128)"⟩ := by
    decide
  exact absurd (h _ _ _ hraised) (by decide)

end OpenQSP
