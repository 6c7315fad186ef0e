import OpenQSP.Protocol.Models

/-!
# The Core frame codec

Encoding and decoding of complete Core frames: the field rules, one payload codec for each
operation, the common header, and the point lookup `GET_MESSAGE`, which has a codec of its own and
is selected by the first two bytes of a frame.

`decodeFrame` is what request handlers use and rejects every flag; `decodeFrameWithFlags` also
accepts the `UNSOLICITED` flag, which is how the APRS carriage validates a frame.

## Main definitions

* `Reader.take`, `u8`, `u32`, `prefixed` — the bounds-checked payload reader
* `textBytes`, `decodeText`, `callsignBytes`, `decodeCallsign` — the field rules
* `decodeFrame`, `decodeFrameWithFlags`, `encodeFrame`
* `validateCallsign`, `normalizeCallsign`
-/

namespace OpenQSP

/-! ### Reading a payload -/

namespace Reader

/-- Read `size` bytes of the rest of the payload. -/
def take (size : ℕ) (field : String) (rest : Bytes) : Py (Bytes × Bytes) :=
  if rest.length < size then
    .error (.payloadLength ("payload is truncated while reading " ++ field))
  else
    .ok (rest.take size, rest.drop size)

def u8 (field : String) (rest : Bytes) : Py (ℕ × Bytes) := do
  let (value, rest) ← take 1 field rest
  return (fromBigEndian value, rest)

def u32 (field : String) (rest : Bytes) : Py (ℕ × Bytes) := do
  let (value, rest) ← take 4 field rest
  return (fromBigEndian value, rest)

/-- Read a length byte and as many bytes. -/
def prefixed (field : String) (rest : Bytes) : Py (Bytes × Bytes) := do
  let (size, rest) ← u8 (field ++ "_length") rest
  take size field rest

/-- The payload must have been read to its end. -/
def finish (rest : Bytes) : Py Unit :=
  if rest = [] then .ok () else .error (.payloadLength "payload contains trailing bytes")

end Reader

/-! ### Field rules -/

def requireExact (payload : Bytes) (size : ℕ) (operation : String) : Py Unit :=
  if payload.length = size then .ok ()
  else .error (.payloadLength (operation ++ " payload must be exactly " ++ toString size ++
    " bytes"))

/-- Check that `value` is an unsigned integer of `bits` bits, and positive when `nonzero`. -/
def integer (value : ℤ) (bits : ℕ) (field : String) (nonzero : Bool) : Py ℕ :=
  if 0 ≤ value ∧ value ≤ 2 ^ bits - 1 ∧ ¬(nonzero = true ∧ value = 0) then .ok value.toNat
  else .error (.invalidField (field ++ " must be a " ++ (if nonzero then "non-zero " else "") ++
    "unsigned " ++ toString bits ++ "-bit value"))

def encodeU8 (value : ℤ) (field : String) (nonzero : Bool) : Py Bytes := do
  return toBigEndian 1 (← integer value 8 field nonzero)

def encodeU32 (value : ℤ) (field : String) (nonzero : Bool) : Py Bytes := do
  return toBigEndian 4 (← integer value 32 field nonzero)

/-- The text of a length violation. -/
def lengthText (field : String) (minimum maximum : ℕ) : String :=
  field ++ " must contain between " ++ toString minimum ++ " and " ++ toString maximum ++
    " UTF-8 bytes"

/-- The bytes of a text field. A text that is too long has its own exception class. -/
def textBytes (value : Str) (field : String) (minimum maximum : ℕ) : Py Bytes :=
  match encodeUtf8 value with
  | none => .error (.invalidField (field ++ " must be valid UTF-8"))
  | some encoded =>
    if 0 ∈ encoded then .error (.invalidField (field ++ " must not contain NUL"))
    else if maximum < encoded.length then
      .error ⟨.fieldTooLongError, lengthText field minimum maximum⟩
    else if encoded.length < minimum then
      .error (.invalidField (lengthText field minimum maximum))
    else .ok encoded

def decodeText (data : Bytes) (field : String) (minimum maximum : ℕ) : Py Str :=
  if ¬(minimum ≤ data.length ∧ data.length ≤ maximum) then
    .error (.invalidField (lengthText field minimum maximum))
  else if 0 ∈ data then .error (.invalidField (field ++ " must not contain NUL"))
  else match decodeUtf8 data with
    | some value => .ok value
    | none => .error (.invalidField (field ++ " must be valid UTF-8"))

/-- `byte in range(48, 58)` -/
def isDigitByte (b : UInt8) : Bool := 48 ≤ b && b ≤ 57

/-- `byte in range(65, 91)` -/
def isUpperByte (b : UInt8) : Bool := 65 ≤ b && b ≤ 90

/-- The bytes of a callsign: uppercase letters and digits, at least one of each. -/
def callsignBytes (value : Str) (field : String) : Py Bytes := do
  let encoded ← textBytes value field minCallsignLength maxCallsignLength
  raiseIf (encoded.any fun b => !isDigitByte b && !isUpperByte b)
    (.invalidField (field ++ " must contain only uppercase ASCII A-Z and 0-9"))
  raiseIf (!encoded.any isUpperByte || !encoded.any isDigitByte)
    (.invalidField (field ++ " must contain at least one letter and one number"))
  return encoded

/-- Validate and return an already normalized callsign. -/
def validateCallsign (value : Str) (field : String) : Py Str := do
  let _ ← callsignBytes value field
  return value

/-- `c.upper()` for one ASCII character. -/
def PyChar.upper : PyChar → PyChar
  | .scalar c => .scalar c.toUpper
  | c => c

/-- `text.strip()` for ASCII text. -/
def strip (text : Str) : Str :=
  let blank : PyChar → Bool := fun c => c.code = 32 || (9 ≤ c.code && c.code ≤ 13) ||
    (28 ≤ c.code && c.code ≤ 31)
  ((text.dropWhile blank).reverse.dropWhile blank).reverse

/-- Normalize an operating callsign to its base account identity: what precedes the first `/` and
the first `-`, in upper case. The case mapping is that of ASCII text. -/
def normalizeCallsign (value : Str) (field : String) : Py Str :=
  let normalized := (strip value).map PyChar.upper
  let base := (normalized.takeWhile (·.code ≠ 47)).takeWhile (·.code ≠ 45)
  validateCallsign base field

def decodeCallsign (data : Bytes) (field : String) : Py Str :=
  match decodeAscii data with
  | none => .error (.invalidField (field ++ " must be ASCII"))
  | some value => do
    let _ ← callsignBytes value field
    return value

/-- The data behind its length byte. -/
def prefixBytes (data : Bytes) : Py Bytes := do
  return (← encodeU8 data.length "length" false) ++ data

/-! ### Payloads -/

def decodeSendMessage (payload : Bytes) : Py ProtocolObject := do
  let (createdAt, rest) ← Reader.u32 "created_at" payload
  let (recipient, rest) ← Reader.prefixed "recipient" rest
  let recipient ← decodeCallsign recipient "recipient"
  let (body, rest) ← Reader.prefixed "body" rest
  let body ← decodeText body "body" minMessageBodyLength maxMessageBodyLength
  Reader.finish rest
  let _ ← integer createdAt 32 "created_at" true
  return .sendMessage ⟨createdAt, recipient, body⟩

def encodeSendMessage (value : SendMessage) : Py Bytes := do
  let recipient ← callsignBytes value.recipient "recipient"
  let body ← textBytes value.body "body" minMessageBodyLength maxMessageBodyLength
  return (← encodeU32 value.createdAt "created_at" true) ++ (← prefixBytes recipient) ++
    (← prefixBytes body)

/-- The text of a `max` outside the retrieval bounds. -/
def retrievalText : String :=
  "max must be between " ++ toString minRetrievalMax ++ " and " ++ toString maxRetrievalMax

/-- The `since` and `max` of a retrieval request. -/
def decodeRetrieval (payload : Bytes) (name : String) : Py (ℕ × ℕ) := do
  requireExact payload 5 name
  let since := fromBigEndian (payload.take 4)
  let maximum := fromBigEndian (payload.drop 4)
  raiseIf (¬(minRetrievalMax ≤ maximum ∧ maximum ≤ maxRetrievalMax))
    (.invalidField retrievalText)
  return (since, maximum)

def encodeRetrieval (since max : ℤ) : Py Bytes := do
  let maximum ← integer max 8 "max" false
  raiseIf (¬(minRetrievalMax ≤ maximum ∧ maximum ≤ maxRetrievalMax))
    (.invalidField retrievalText)
  return (← encodeU32 since "since" false) ++ [UInt8.ofNat maximum]

def decodeGetNewMessages (payload : Bytes) : Py ProtocolObject := do
  let (since, maximum) ← decodeRetrieval payload "GET_NEW_MESSAGES"
  return .getNewMessages ⟨since, maximum⟩

def decodeGetNewBulletins (payload : Bytes) : Py ProtocolObject := do
  let (since, maximum) ← decodeRetrieval payload "GET_NEW_BULLETINS"
  return .getNewBulletins ⟨since, maximum⟩

def decodeGetBulletin (payload : Bytes) : Py ProtocolObject := do
  requireExact payload 4 "GET_BULLETIN"
  let sequence := fromBigEndian payload
  let _ ← integer sequence 32 "sequence" true
  return .getBulletin ⟨sequence⟩

def decodeGetCapabilities (payload : Bytes) : Py ProtocolObject := do
  requireExact payload 0 "GET_CAPABILITIES"
  return .getCapabilities

def decodeCapabilities (payload : Bytes) : Py ProtocolObject := do
  requireExact payload 5 "CAPABILITIES"
  return .capabilities ⟨fromBigEndian (payload.take 1), fromBigEndian (payload.drop 1)⟩

def encodeCapabilities (value : Capabilities) : Py Bytes := do
  return (← encodeU8 value.protocolVersion "protocol_version" true) ++
    (← encodeU32 value.capabilities "capabilities" false)

def decodeMessage (payload : Bytes) : Py ProtocolObject := do
  let (sequence, rest) ← Reader.u32 "sequence" payload
  let (conversationSequence, rest) ← Reader.u32 "conversation_sequence" rest
  let (createdAt, rest) ← Reader.u32 "created_at" rest
  let (author, rest) ← Reader.prefixed "author" rest
  let author ← decodeCallsign author "author"
  let (recipient, rest) ← Reader.prefixed "recipient" rest
  let recipient ← decodeCallsign recipient "recipient"
  let (body, rest) ← Reader.prefixed "body" rest
  let body ← decodeText body "body" minMessageBodyLength maxMessageBodyLength
  Reader.finish rest
  let _ ← integer sequence 32 "sequence" true
  let _ ← integer conversationSequence 32 "conversation_sequence" true
  let _ ← integer createdAt 32 "created_at" true
  return .message ⟨sequence, conversationSequence, createdAt, author, recipient, body⟩

def encodeMessage (value : Message) : Py Bytes := do
  let author ← callsignBytes value.author "author"
  let recipient ← callsignBytes value.recipient "recipient"
  let body ← textBytes value.body "body" minMessageBodyLength maxMessageBodyLength
  return (← encodeU32 value.sequence "sequence" true) ++
    (← encodeU32 value.conversationSequence "conversation_sequence" true) ++
    (← encodeU32 value.createdAt "created_at" true) ++
    (← prefixBytes author) ++ (← prefixBytes recipient) ++ (← prefixBytes body)

def decodeBulletinHeader (payload : Bytes) : Py ProtocolObject := do
  let (sequence, rest) ← Reader.u32 "sequence" payload
  let (createdAt, rest) ← Reader.u32 "created_at" rest
  let (author, rest) ← Reader.prefixed "author" rest
  let author ← decodeCallsign author "author"
  let (title, rest) ← Reader.prefixed "title" rest
  let title ← decodeText title "title" minBulletinTitleLength maxBulletinTitleLength
  Reader.finish rest
  let _ ← integer sequence 32 "sequence" true
  let _ ← integer createdAt 32 "created_at" true
  return .bulletinHeader ⟨sequence, createdAt, author, title⟩

def encodeBulletinHeader (value : BulletinHeader) : Py Bytes := do
  let author ← callsignBytes value.author "author"
  let title ← textBytes value.title "title" minBulletinTitleLength maxBulletinTitleLength
  return (← encodeU32 value.sequence "sequence" true) ++
    (← encodeU32 value.createdAt "created_at" true) ++
    (← prefixBytes author) ++ (← prefixBytes title)

def decodeBulletin (payload : Bytes) : Py ProtocolObject := do
  let (sequence, rest) ← Reader.u32 "sequence" payload
  let (createdAt, rest) ← Reader.u32 "created_at" rest
  let (author, rest) ← Reader.prefixed "author" rest
  let author ← decodeCallsign author "author"
  let (title, rest) ← Reader.prefixed "title" rest
  let title ← decodeText title "title" minBulletinTitleLength maxBulletinTitleLength
  let (body, rest) ← Reader.prefixed "body" rest
  let body ← decodeText body "body" minBulletinBodyLength maxBulletinBodyLength
  Reader.finish rest
  let _ ← integer sequence 32 "sequence" true
  let _ ← integer createdAt 32 "created_at" true
  return .bulletin ⟨sequence, createdAt, author, title, body⟩

def encodeBulletin (value : Bulletin) : Py Bytes := do
  let author ← callsignBytes value.author "author"
  let title ← textBytes value.title "title" minBulletinTitleLength maxBulletinTitleLength
  let body ← textBytes value.body "body" minBulletinBodyLength maxBulletinBodyLength
  return (← encodeU32 value.sequence "sequence" true) ++
    (← encodeU32 value.createdAt "created_at" true) ++
    (← prefixBytes author) ++ (← prefixBytes title) ++ (← prefixBytes body)

def endOperationText : String := "END request_operation must be a retrieval operation"

def decodeEnd (payload : Bytes) : Py ProtocolObject := do
  requireExact payload 7 "END"
  match Operation.ofCode (payload.getD 0 0) with
  | none => Except.error (.invalidField endOperationText)
  | some operation =>
    raiseIf (¬operation.isRetrieval) (.invalidField endOperationText)
    raiseIf (payload.getD 6 0 ≠ 0 ∧ payload.getD 6 0 ≠ 1)
      (.invalidField "has_more must be 0x00 or 0x01")
    return .end ⟨operation, fromBigEndian ((payload.drop 1).take 1),
      fromBigEndian ((payload.drop 2).take 4), payload.getD 6 0 = 1⟩

def encodeEnd (value : End) : Py Bytes := do
  raiseIf (¬value.requestOperation.isRetrieval) (.invalidField endOperationText)
  return [value.requestOperation.code] ++ (← encodeU8 value.returnedCount "returned_count" false) ++
    (← encodeU32 value.nextSince "next_since" false) ++ [if value.hasMore then 1 else 0]

def decodeStored (payload : Bytes) : Py ProtocolObject := do
  requireExact payload 0 "STORED"
  return .stored

/-- The request operation of an `ERROR`: zero stands for none. -/
def decodeRequestOperation (code : UInt8) : Py (Option Operation) :=
  if code = 0 then .ok none
  else match Operation.ofCode code with
    | some operation => .ok (some operation)
    | none => .error (.invalidField ("unknown request_operation: " ++ hexByte code))

def encodeRequestOperation : Option Operation → UInt8
  | none => 0
  | some operation => operation.code

def decodeError (payload : Bytes) : Py ProtocolObject := do
  let (operationCode, rest) ← Reader.take 1 "request_operation" payload
  let (errorCode, rest) ← Reader.take 1 "error_code" rest
  let (detail, rest) ← Reader.prefixed "detail" rest
  let detail ← decodeText detail "detail" 0 maxErrorDetailLength
  Reader.finish rest
  let requestOperation ← decodeRequestOperation (operationCode.getD 0 0)
  match ErrorCode.ofCode (errorCode.getD 0 0) with
  | some code => return .error ⟨requestOperation, code, detail⟩
  | none => .error (.invalidField ("unknown ERROR code: " ++ hexByte (errorCode.getD 0 0)))

def encodeError (value : Error) : Py Bytes := do
  let detail ← textBytes value.detail "detail" 0 maxErrorDetailLength
  return [encodeRequestOperation value.requestOperation, value.errorCode.code] ++
    (← prefixBytes detail)

/-! ### `GET_MESSAGE` -/

/-- The callsign rules of the point lookup, on ASCII text. -/
def isNormalizedPeer (peer : Str) : Bool :=
  peer ≠ [] && peer.all (fun c => c.isDigit || c.isUpper || c.isLower) &&
    peer.map PyChar.upper = peer && peer.any (fun c => c.isUpper || c.isLower) &&
    peer.any PyChar.isDigit

def normalizedPeerText : String := "peer must be a normalized OpenQSP callsign"

def decodeGetMessageFrame (data : Bytes) : Py ProtocolObject := do
  raiseIf (data.length < headerSize)
    (.payloadLength "frame is too short to contain the Core header")
  raiseIf (data.getD 0 0 ≠ protocolVersion ∨ data.getD 1 0 ≠ Operation.getMessage.code ∨
      data.getD 2 0 ≠ 0)
    (.invalidField "invalid GET_MESSAGE header")
  let payload := data.drop headerSize
  raiseIf ((data.getD 3 0).toNat ≠ payload.length)
    (.payloadLength "declared GET_MESSAGE payload length does not match frame")
  raiseIf (payload.length < 1 + minCallsignLength + 4)
    (.payloadLength "GET_MESSAGE payload is truncated")
  let peerLength := (payload.getD 0 0).toNat
  raiseIf (¬(minCallsignLength ≤ peerLength ∧ peerLength ≤ maxCallsignLength))
    (.invalidField "peer has invalid callsign length")
  raiseIf (payload.length ≠ 1 + peerLength + 4)
    (.payloadLength "GET_MESSAGE payload contains trailing or missing bytes")
  match decodeAscii ((payload.drop 1).take peerLength) with
  | none => Except.error (.invalidField "peer must be ASCII")
  | some peer =>
    raiseIf (¬isNormalizedPeer peer) (.invalidField normalizedPeerText)
    let sequence := fromBigEndian (payload.drop (1 + peerLength))
    raiseIf (sequence = 0) (.invalidField "conversation_sequence must be non-zero")
    return .getMessage ⟨peer, sequence⟩

/-- `text.encode("ascii")` -/
def encodeAscii (text : Str) : Py Bytes :=
  if text.all (·.code < 128) then .ok (text.map fun c => UInt8.ofNat c.code)
  else .error ⟨.unicodeEncodeError, "ordinal not in range(128)"⟩

def encodeGetMessageFrame (value : GetMessage) : Py Bytes := do
  let peer ← encodeAscii value.peer
  raiseIf (¬(minCallsignLength ≤ peer.length ∧ peer.length ≤ maxCallsignLength))
    (.invalidField "peer has invalid callsign length")
  raiseIf (¬isNormalizedPeer value.peer) (.invalidField normalizedPeerText)
  let sequence := value.conversationSequence
  raiseIf (¬(1 ≤ sequence ∧ sequence ≤ 0xFFFFFFFF))
    (.invalidField "conversation_sequence must be a non-zero unsigned 32-bit value")
  let payload := [UInt8.ofNat peer.length] ++ peer ++ toBigEndian 4 sequence.toNat
  return [protocolVersion, Operation.getMessage.code, 0, UInt8.ofNat payload.length] ++ payload

/-! ### Frames -/

/-- The payload decoder of an operation. `GET_MESSAGE` is not in the table: frames of that
operation are decoded by `decodeGetMessageFrame` before the table is consulted. -/
def decodePayload : Operation → Bytes → Py ProtocolObject
  | .sendMessage => decodeSendMessage
  | .getNewMessages => decodeGetNewMessages
  | .getNewBulletins => decodeGetNewBulletins
  | .getBulletin => decodeGetBulletin
  | .getCapabilities => decodeGetCapabilities
  | .getMessage => fun _ => .error ⟨.keyError, "GET_MESSAGE"⟩
  | .message => decodeMessage
  | .bulletinHeader => decodeBulletinHeader
  | .bulletin => decodeBulletin
  | .end => decodeEnd
  | .stored => decodeStored
  | .error => decodeError
  | .capabilities => decodeCapabilities

/-- The payload encoder of an object. -/
def encodePayload : ProtocolObject → Py Bytes
  | .sendMessage value => encodeSendMessage value
  | .getNewMessages value => encodeRetrieval value.since value.max
  | .getNewBulletins value => encodeRetrieval value.since value.max
  | .getBulletin value => encodeU32 value.sequence "sequence" true
  | .getCapabilities => pure []
  | .getMessage _ => .error ⟨.protocolEncodeError, "unsupported protocol object: GetMessage"⟩
  | .message value => encodeMessage value
  | .bulletinHeader value => encodeBulletinHeader value
  | .bulletin value => encodeBulletin value
  | .end value => encodeEnd value
  | .stored => pure []
  | .error value => encodeError value
  | .capabilities value => encodeCapabilities value

def unsolicitedText : String := "UNSOLICITED is valid only for MESSAGE and BULLETIN_HEADER"

/-- Validate the common header: the operation, the flags and the payload of a complete frame. -/
def decodeHeader (data : Bytes) (allowUnsolicited : Bool) : Py (Operation × UInt8 × Bytes) := do
  raiseIf (data.length < headerSize)
    (.payloadLength "frame is too short to contain the Core header")
  raiseIf (maxFrameSize < data.length)
    (.payloadLength "frame exceeds the version 0.1 maximum size")
  let version := data.getD 0 0
  let operationCode := data.getD 1 0
  let flags := data.getD 2 0
  let payloadLength := (data.getD 3 0).toNat
  raiseIf (version ≠ protocolVersion)
    ⟨.unsupportedVersionError, "unsupported protocol version: " ++ hexByte version⟩
  match Operation.ofCode operationCode with
  | none =>
    Except.error ⟨.unknownOperationError, "unknown version 0.1 operation: " ++
      hexByte operationCode⟩
  | some operation =>
    let permittedFlags := if allowUnsolicited then unsolicitedFlag else 0
    raiseIf (flags &&& ~~~permittedFlags ≠ 0)
      (.invalidField ("unsupported version 0.1 flags: " ++ hexByte flags))
    raiseIf (flags &&& unsolicitedFlag ≠ 0 ∧ ¬operation.maybeUnsolicited)
      (.invalidField unsolicitedText)
    let actual := data.length - headerSize
    raiseIf (actual ≠ payloadLength)
      (.payloadLength ("declared payload length does not match the complete frame (" ++
        toString payloadLength ++ " declared, " ++ toString actual ++ " present)"))
    return (operation, flags, data.drop headerSize)

/-- Does the frame select the point-lookup codec? -/
def isGetMessageFrame (data : Bytes) : Bool :=
  2 ≤ data.length && data.getD 0 0 = protocolVersion && data.getD 1 0 = Operation.getMessage.code

/-- Decode one complete frame of a request, rejecting all flags. -/
def decodeFrame (data : Bytes) : Py ProtocolObject :=
  if isGetMessageFrame data then decodeGetMessageFrame data
  else do
    let (operation, _, payload) ← decodeHeader data false
    decodePayload operation payload

/-- Decode one complete frame and keep its flags. -/
def decodeFrameWithFlags (data : Bytes) : Py (ProtocolObject × UInt8) :=
  if isGetMessageFrame data then do
    return (← decodeGetMessageFrame data, 0)
  else do
    let (operation, flags, payload) ← decodeHeader data true
    return (← decodePayload operation payload, flags)

/-- Encode one object as a Core frame. -/
def encodeFrame (obj : ProtocolObject) (unsolicited : Bool) : Py Bytes :=
  match obj with
  | .getMessage value =>
    if unsolicited then .error ⟨.valueError, "UNSOLICITED is invalid for GET_MESSAGE"⟩
    else encodeGetMessageFrame value
  | obj => do
    raiseIf (unsolicited ∧ ¬obj.operation.maybeUnsolicited)
      ⟨.protocolEncodeError, unsolicitedText⟩
    let payload ← encodePayload obj
    raiseIf (maxPayloadSize < payload.length)
      ⟨.protocolEncodeError, "payload exceeds the version 0.1 maximum size"⟩
    let flags := if unsolicited then unsolicitedFlag else 0
    return [protocolVersion, obj.operation.code, flags, UInt8.ofNat payload.length] ++ payload

end OpenQSP
