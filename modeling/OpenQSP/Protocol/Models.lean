import OpenQSP.Python.Error

/-!
# Operations of the Core protocol

The wire-level constants and enumerations of protocol version 0.1, and one record for each of the
thirteen operations. Integers of a record are unrestricted, as they are in the source; the codec
checks them.

## Main definitions

* `Operation`, `ErrorCode` — the enumerations, with their codes
* `ProtocolObject` — any of the thirteen operations
-/

namespace OpenQSP

def protocolVersion : UInt8 := 0x01

def headerSize : ℕ := 4

def maxPayloadSize : ℕ := 255

def maxFrameSize : ℕ := headerSize + maxPayloadSize

def minCallsignLength : ℕ := 3

def maxCallsignLength : ℕ := 12

def minMessageBodyLength : ℕ := 1

def maxMessageBodyLength : ℕ := 208

def minBulletinTitleLength : ℕ := 1

def maxBulletinTitleLength : ℕ := 64

def minBulletinBodyLength : ℕ := 1

def maxBulletinBodyLength : ℕ := 164

def minRetrievalMax : ℕ := 1

def maxRetrievalMax : ℕ := 20

def maxErrorDetailLength : ℕ := 64

/-- Set only on node-originated `MESSAGE` and `BULLETIN_HEADER` frames that answer no request. -/
def unsolicitedFlag : UInt8 := 0x01

/-- The services of this node: private messaging, bulletin listing, bulletin retrieval and
proactive private messages. -/
def implementedCapabilities : ℕ := 0x0F

/-- The operations of protocol version 0.1. -/
inductive Operation
  | sendMessage | getNewMessages | getNewBulletins | getBulletin | getCapabilities | getMessage
  | message | bulletinHeader | bulletin | end | stored | error | capabilities
  deriving DecidableEq

namespace Operation

/-- The operation code on the wire. -/
def code : Operation → UInt8
  | sendMessage => 0x01
  | getNewMessages => 0x02
  | getNewBulletins => 0x03
  | getBulletin => 0x04
  | getCapabilities => 0x05
  | getMessage => 0x06
  | message => 0x40
  | bulletinHeader => 0x41
  | bulletin => 0x42
  | «end» => 0x43
  | stored => 0x44
  | error => 0x45
  | capabilities => 0x46

/-- `Operation(code)`; `none` where it raises `ValueError`. -/
def ofCode (byte : UInt8) : Option Operation :=
  [sendMessage, getNewMessages, getNewBulletins, getBulletin, getCapabilities, getMessage,
    message, bulletinHeader, bulletin, «end», stored, error, capabilities].find? (·.code = byte)

@[simp] theorem ofCode_code (op : Operation) : ofCode op.code = some op := by
  cases op <;> decide

theorem code_of_ofCode {byte : UInt8} {op : Operation} (h : ofCode byte = some op) :
    op.code = byte := by
  have := List.find?_some h
  simpa using this

theorem code_ne_zero (op : Operation) : op.code ≠ 0 := by cases op <;> decide

/-- The retrieval operations an `END` may name. -/
def isRetrieval (op : Operation) : Bool := op = getNewMessages || op = getNewBulletins

/-- The operations that may carry the `UNSOLICITED` flag. -/
def maybeUnsolicited (op : Operation) : Bool := op = message || op = bulletinHeader

end Operation

/-- The failure codes of an `ERROR` frame. -/
inductive ErrorCode
  | invalidFrame | unsupportedVersion | unknownOperation | invalidField | invalidCursor
  | unauthorized | notFound | tooLarge | busy | internalError | rejected
  deriving DecidableEq

namespace ErrorCode

/-- The error code on the wire. -/
def code : ErrorCode → UInt8
  | invalidFrame => 0x01
  | unsupportedVersion => 0x02
  | unknownOperation => 0x03
  | invalidField => 0x04
  | invalidCursor => 0x05
  | unauthorized => 0x06
  | notFound => 0x07
  | tooLarge => 0x08
  | busy => 0x09
  | internalError => 0x0A
  | rejected => 0x0B

/-- `ErrorCode(code)`; `none` where it raises `ValueError`. -/
def ofCode (byte : UInt8) : Option ErrorCode :=
  [invalidFrame, unsupportedVersion, unknownOperation, invalidField, invalidCursor, unauthorized,
    notFound, tooLarge, busy, internalError, rejected].find? (·.code = byte)

@[simp] theorem ofCode_code (c : ErrorCode) : ofCode c.code = some c := by
  cases c <;> decide

end ErrorCode

structure SendMessage where
  createdAt : ℤ
  recipient : Str
  body : Str
  deriving DecidableEq

structure GetNewMessages where
  since : ℤ
  max : ℤ
  deriving DecidableEq

structure GetNewBulletins where
  since : ℤ
  max : ℤ
  deriving DecidableEq

structure GetBulletin where
  sequence : ℤ
  deriving DecidableEq

structure GetMessage where
  peer : Str
  conversationSequence : ℤ
  deriving DecidableEq

structure Capabilities where
  protocolVersion : ℤ
  capabilities : ℤ
  deriving DecidableEq

structure Message where
  sequence : ℤ
  conversationSequence : ℤ
  createdAt : ℤ
  author : Str
  recipient : Str
  body : Str
  deriving DecidableEq

structure BulletinHeader where
  sequence : ℤ
  createdAt : ℤ
  author : Str
  title : Str
  deriving DecidableEq

structure Bulletin where
  sequence : ℤ
  createdAt : ℤ
  author : Str
  title : Str
  body : Str
  deriving DecidableEq

structure End where
  requestOperation : Operation
  returnedCount : ℤ
  nextSince : ℤ
  hasMore : Bool
  deriving DecidableEq

structure Error where
  /-- `none` is the zero that stands for an operation that could not be determined. -/
  requestOperation : Option Operation
  errorCode : ErrorCode
  detail : Str
  deriving DecidableEq

/-- Any operation of the protocol. -/
inductive ProtocolObject
  | sendMessage (value : SendMessage)
  | getNewMessages (value : GetNewMessages)
  | getNewBulletins (value : GetNewBulletins)
  | getBulletin (value : GetBulletin)
  | getCapabilities
  | getMessage (value : GetMessage)
  | message (value : Message)
  | bulletinHeader (value : BulletinHeader)
  | bulletin (value : Bulletin)
  | end (value : End)
  | stored
  | error (value : Error)
  | capabilities (value : Capabilities)
  deriving DecidableEq

namespace ProtocolObject

/-- The operation an object is sent as. -/
def operation : ProtocolObject → Operation
  | sendMessage _ => .sendMessage
  | getNewMessages _ => .getNewMessages
  | getNewBulletins _ => .getNewBulletins
  | getBulletin _ => .getBulletin
  | getCapabilities => .getCapabilities
  | getMessage _ => .getMessage
  | message _ => .message
  | bulletinHeader _ => .bulletinHeader
  | bulletin _ => .bulletin
  | «end» _ => .end
  | stored => .stored
  | error _ => .error
  | capabilities _ => .capabilities

/-- `isinstance(value, SendMessage)` -/
def isSendMessage : ProtocolObject → Bool
  | sendMessage _ => true
  | _ => false

/-- `isinstance(value, Error)` -/
def isError : ProtocolObject → Bool
  | error _ => true
  | _ => false

/-- The operations a client may request. -/
def isRequest : ProtocolObject → Bool
  | sendMessage _ | getNewMessages _ | getNewBulletins _ | getBulletin _ | getCapabilities
  | getMessage _ => true
  | _ => false

end ProtocolObject

end OpenQSP
