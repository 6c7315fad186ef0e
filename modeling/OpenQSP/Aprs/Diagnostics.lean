import OpenQSP.Aprs.Assembling
import OpenQSP.Lib.Method
import OpenQSP.Lib.Runs

/-!
# Diagnostics

For the log every packet is described in one line: an acknowledgement, a control, or a fragment. The
diagnostics reassemble fragments in tables of their own, apart from those that serve requests, and
they run on the text of the network outside of any `try` block.

Which characters beyond ASCII are printable is a parameter.

## Main definitions

* `formatCoreObject` — a decoded operation in one line
* `describeControl`
* `APRSFrameDiagnostics`, `APRSFrameDiagnostics.describe`
* `Reassembler.Reachable` — the tables that calls lead to

## Main results

* `Reassembler.add_raises` — a call on a reachable table raises nothing but a `CarriageError`
* `describeControl_returns`
* `APRSFrameDiagnostics.describe_spec` — a call keeps the tables sound and returns
* `diagnostics_return` — every call of every run returns
-/

namespace OpenQSP

open Method

/-! ### Formats -/

/-- `str(value)` of an integer. -/
def decimal (value : ℤ) : Str := str (toString value)

/-- The hexadecimal digits of a value, filled up with zeros. -/
def hexDigits (width value : ℕ) : Str :=
  let digits := (Nat.toDigits 16 value).map PyChar.scalar
  List.replicate (width - digits.length) (.scalar '0') ++ digits

/-- `f"0x{value:0{width}X}"` -/
def hexMask (width value : ℕ) : Str := str "0x" ++ (hexDigits width value).map PyChar.upper

/-- One character of `repr(text)`. -/
def reprChar (printable : PyChar → Bool) (quote c : PyChar) : Str :=
  if c = quote ∨ c.code = 92 then [.scalar (Char.ofNat 92), c]
  else if c.code = 9 then str "\\t"
  else if c.code = 10 then str "\\n"
  else if c.code = 13 then str "\\r"
  else if 32 ≤ c.code ∧ c.code < 127 ∨ 127 < c.code ∧ printable c then [c]
  else if c.code < 0x100 then str "\\x" ++ hexDigits 2 c.code
  else if c.code < 0x10000 then str "\\u" ++ hexDigits 4 c.code
  else str "\\U" ++ hexDigits 8 c.code

/-- `repr(text)` -/
def reprStr (printable : PyChar → Bool) (text : Str) : Str :=
  let single : PyChar := .scalar (Char.ofNat 39)
  let double : PyChar := .scalar (Char.ofNat 34)
  let quote := if single ∈ text ∧ double ∉ text then double else single
  [quote] ++ text.flatMap (reprChar printable quote) ++ [quote]

/-- The name of the member of the enumeration. -/
def Operation.name : Operation → String
  | sendMessage => "SEND_MESSAGE"
  | getNewMessages => "GET_NEW_MESSAGES"
  | getNewBulletins => "GET_NEW_BULLETINS"
  | getBulletin => "GET_BULLETIN"
  | getCapabilities => "GET_CAPABILITIES"
  | getMessage => "GET_MESSAGE"
  | message => "MESSAGE"
  | bulletinHeader => "BULLETIN_HEADER"
  | bulletin => "BULLETIN"
  | «end» => "END"
  | stored => "STORED"
  | error => "ERROR"
  | capabilities => "CAPABILITIES"

/-- The name of the member of the enumeration. -/
def ErrorCode.name : ErrorCode → String
  | invalidFrame => "INVALID_FRAME"
  | unsupportedVersion => "UNSUPPORTED_VERSION"
  | unknownOperation => "UNKNOWN_OPERATION"
  | invalidField => "INVALID_FIELD"
  | invalidCursor => "INVALID_CURSOR"
  | unauthorized => "UNAUTHORIZED"
  | notFound => "NOT_FOUND"
  | tooLarge => "TOO_LARGE"
  | busy => "BUSY"
  | internalError => "INTERNAL_ERROR"
  | rejected => "REJECTED"

/-- `_operation_name`, of an operation or of the zero that stands for none. -/
def operationName : Option Operation → Str
  | some op => str op.name
  | none => str "0"

/-- `format_core_object` -/
def formatCoreObject (printable : PyChar → Bool) (obj : ProtocolObject) (flags : UInt8) : Str :=
  let unsolicited := if flags &&& unsolicitedFlag ≠ 0 then str " unsolicited=true" else []
  match obj with
  | .sendMessage value =>
    str "SEND_MESSAGE recipient=" ++ value.recipient ++ str " created_at=" ++
      decimal value.createdAt ++ str " body=" ++ reprStr printable value.body
  | .getNewMessages value =>
    str "GET_NEW_MESSAGES since=" ++ decimal value.since ++ str " max=" ++ decimal value.max
  | .getNewBulletins value =>
    str "GET_NEW_BULLETINS since=" ++ decimal value.since ++ str " max=" ++ decimal value.max
  | .getBulletin value => str "GET_BULLETIN sequence=" ++ decimal value.sequence
  | .getCapabilities => str "GET_CAPABILITIES"
  | .capabilities value =>
    str "CAPABILITIES protocol_version=" ++ decimal value.protocolVersion ++
      str " capabilities=" ++ hexMask 8 value.capabilities.toNat
  | .message value =>
    str "MESSAGE seq=" ++ decimal value.sequence ++ str " from=" ++ value.author ++ str " to=" ++
      value.recipient ++ str " created_at=" ++ decimal value.createdAt ++ str " body=" ++
      reprStr printable value.body ++ unsolicited
  | .bulletinHeader value =>
    str "BULLETIN_HEADER seq=" ++ decimal value.sequence ++ str " from=" ++ value.author ++
      str " created_at=" ++ decimal value.createdAt ++ str " title=" ++
      reprStr printable value.title ++ unsolicited
  | .bulletin value =>
    str "BULLETIN seq=" ++ decimal value.sequence ++ str " from=" ++ value.author ++
      str " created_at=" ++ decimal value.createdAt ++ str " title=" ++
      reprStr printable value.title ++ str " body=" ++ reprStr printable value.body
  | .end value =>
    str "END request=" ++ operationName (some value.requestOperation) ++ str " returned=" ++
      decimal value.returnedCount ++ str " next_since=" ++ decimal value.nextSince ++
      str " has_more=" ++ str (if value.hasMore then "true" else "false")
  | .stored => str "STORED"
  | .error value =>
    str "ERROR request=" ++ operationName value.requestOperation ++ str " code=" ++
      str value.errorCode.name ++ str " detail=" ++ reprStr printable value.detail
  -- No case of its own; what is left is `repr(obj)`.
  | .getMessage value =>
    str "GetMessage(peer=" ++ reprStr printable value.peer ++ str ", conversation_sequence=" ++
      decimal value.conversationSequence ++ str ")"

/-! ### Controls -/

/-- `_decode_v2_control_transaction`, for one byte. -/
def decodeControlTransaction (body : Str) : Py (Option Str) :=
  match base91Decode (body.drop 2) with
  | .error e => if e.isA .carriageError then .ok none else .error e
  | .ok [transaction] => some <$> base36 transaction.toNat 3
  | .ok _ => .ok none

/-- The fragments that a mask asks for. -/
def describeMask (kind : String) (transactionId : Str) (mask : ℕ) : Option Str :=
  if mask = 0 then none
  else
    let missing := ((List.range 16).filter mask.testBit).map fun index => decimal (index + 1)
    some (str kind ++ str " transaction=" ++ transactionId ++ str " missing=" ++
      [PyChar.scalar ','].intercalate missing ++ str " mask=" ++ hexMask 4 mask)

/-- `Q1A:([0-9A-Z]{3})`, matched completely. -/
def matchQ1Ack (body : Str) : Option Str :=
  let transactionId := body.drop 4
  if body.take 4 = str "Q1A:" ∧ transactionId.length = 3 ∧ transactionId.all PyChar.isBase36 then
    some transactionId
  else none

/-- `Q1N:([0-9A-Z]{3}):([0-9A-F]{4})`, matched completely. -/
def matchQ1Nack (body : Str) : Option (Str × Str) :=
  let transactionId := (body.drop 4).take 3
  let mask := body.drop 8
  if body.take 4 = str "Q1N:" ∧ transactionId.length = 3 ∧ transactionId.all PyChar.isBase36 ∧
      (body.drop 7).take 1 = str ":" ∧ mask.length = 4 ∧
      mask.all (fun c => c.isDigit || (65 ≤ c.code && c.code ≤ 70)) then
    some (transactionId, mask)
  else none

/-- `_describe_openqsp_control` -/
def describeControl (body : Str) : Py (Option Str) :=
  if body.take 2 = str "A2" then do
    let transaction ← decodeControlTransaction body
    return transaction.map fun transaction => str "A2 transaction=" ++ transaction ++ str " ACK"
  else if body.take 2 = str "S2" then do
    let transaction ← decodeControlTransaction body
    return transaction.map fun transaction => str "S2 transaction=" ++ transaction ++ str " STORED"
  else if body.take 2 = str "N2" then
    match base91Decode (body.drop 2) with
    | .error e => if e.isA .carriageError then .ok none else .error e
    | .ok [transaction, high, low] => do
      return describeMask "N2" (← base36 transaction.toNat 3) (fromBigEndian [high, low])
    | .ok _ => .ok none
  else
    match matchQ1Ack body with
    | some transaction => .ok (some (str "Q1A transaction=" ++ transaction ++ str " ACK"))
    | none =>
      match matchQ1Nack body with
      | some (transaction, mask) =>
        .ok (describeMask "Q1N" transaction
          (mask.foldl (fun value c => value * 16 + base36Value c) 0))
      | none => .ok none

/-! ### Descriptions -/

inductive Direction
  | rx | tx
  deriving DecidableEq

/-- The tables of the diagnostics. -/
structure APRSFrameDiagnostics where
  rx : Reassembler := .empty
  tx : Reassembler := .empty

/-- What every description of a fragment begins with. -/
def APRSFragment.profile (fragment : APRSFragment) : Str :=
  str "Q" ++ decimal fragment.version ++ str " transaction=" ++ fragment.transactionId ++
    str " fragment=" ++ decimal (fragment.index + 1) ++ str "/" ++ decimal fragment.total

/-- The beginning with the message id, if there is one. -/
def APRSFragment.heading (fragment : APRSFragment) : Str :=
  match fragment.messageId with
  | none => fragment.profile
  | some messageId => fragment.profile ++ str " message_id=" ++ messageId

namespace APRSFrameDiagnostics

def reassembler (s : APRSFrameDiagnostics) : Direction → Reassembler
  | .rx => s.rx
  | .tx => s.tx

def setReassembler (s : APRSFrameDiagnostics) (entries : Reassembler) :
    Direction → APRSFrameDiagnostics
  | .rx => { s with rx := entries }
  | .tx => { s with tx := entries }

/-- The part of `_describe` that adds a fragment to a table. -/
def describeFragment (bounds : ReassemblyBounds) (printable : PyChar → Bool)
    (direction : Direction) (peer : Str) (now : ℚ) (fragment : APRSFragment) :
    Method PyError APRSFrameDiagnostics (Option Str) := do
  let s ← get
  let (outcome, entries) := (s.reassembler direction).add bounds peer fragment now
  set (s.setReassembler entries direction)
  match outcome with
  | .error e =>
    if e.isA .carriageError ∨ e.isA .transactionConflict then
      return some (fragment.profile ++ str " decode_error=" ++ str e.text)
    else Method.raise e
  | .ok none => return some (fragment.heading ++ str " waiting_for_complete_frame")
  | .ok (some frame) =>
    match decodeFrameWithFlags frame with
    | .error e => return some (fragment.heading ++ str " core_decode_error=" ++ str e.text)
    | .ok (obj, flags) =>
      return some (fragment.heading ++ str " -> " ++ formatCoreObject printable obj flags)

/-- `_describe` -/
def describe (bounds : ReassemblyBounds) (printable : PyChar → Bool) (direction : Direction)
    (peer body : Str) (now : ℚ) : Method PyError APRSFrameDiagnostics (Option Str) := do
  match matchAck body with
  | some messageId => return some (str "APRS ACK message_id=" ++ messageId)
  | none => do
  match ← Method.ofExcept (describeControl body) with
  | some control => return some control
  | none =>
    match parseFragment body with
    | .error e =>
      if e.isA .carriageError ∨ e.isA .typeError then return none else Method.raise e
    | .ok fragment => describeFragment bounds printable direction peer now fragment

/-- Both tables hold what their calls have put there. -/
structure Sound (s : APRSFrameDiagnostics) : Prop where
  rx : s.rx.Sound
  tx : s.tx.Sound

theorem Sound.reassembler {s : APRSFrameDiagnostics} (h : s.Sound) (direction : Direction) :
    (s.reassembler direction).Sound := by
  cases direction with
  | rx => exact h.rx
  | tx => exact h.tx

theorem Sound.set {s : APRSFrameDiagnostics} (h : s.Sound) {entries : Reassembler}
    (hentries : entries.Sound) (direction : Direction) :
    (s.setReassembler entries direction).Sound := by
  cases direction with
  | rx => exact ⟨hentries, h.tx⟩
  | tx => exact ⟨h.rx, hentries⟩

end APRSFrameDiagnostics

/-- What a call returns for a body, where `added` is what the table makes of a fragment. Nothing is
returned for a frame that does not decode: the table returns no such frame. -/
inductive Described (printable : PyChar → Bool) (added : APRSFragment → Py (Option Bytes))
    (body : Str) : Option Str → Prop
  | ack {messageId : Str} (matched : matchAck body = some messageId) :
    Described printable added body (some (str "APRS ACK message_id=" ++ messageId))
  | control {control : Str} (described : describeControl body = .ok (some control)) :
    Described printable added body (some control)
  | noFragment {e : PyError} (parsed : parseFragment body = .error e) :
    Described printable added body none
  | inconsistent {fragment : APRSFragment} {e : PyError}
      (parsed : parseFragment body = .ok fragment)
    (raised : added fragment = .error e) :
    Described printable added body
      (some (fragment.profile ++ str " decode_error=" ++ str e.text))
  | waiting {fragment : APRSFragment} (parsed : parseFragment body = .ok fragment)
    (incomplete : added fragment = .ok none) :
    Described printable added body (some (fragment.heading ++ str " waiting_for_complete_frame"))
  | decoded {fragment : APRSFragment} {frame : Bytes} {obj : ProtocolObject} {flags : UInt8}
    (parsed : parseFragment body = .ok fragment) (complete : added fragment = .ok (some frame))
    (decoded : decodeFrameWithFlags frame = .ok (obj, flags)) :
    Described printable added body
      (some (fragment.heading ++ str " -> " ++ formatCoreObject printable obj flags))

/-! ### Controls are described -/

theorem base36_byte (byte : UInt8) : base36 byte.toNat 3 = .ok (base36Digits 3 byte.toNat) := by
  have hbyte := byte.toNat_lt
  rw [base36, raiseIf_of_not (by omega)]
  rfl

theorem decodeControlTransaction_returns (body : Str) :
    ∃ transaction, decodeControlTransaction body = .ok transaction := by
  rw [decodeControlTransaction]
  split
  · next e he =>
    exact ⟨none, if_pos (base91Decode_raises _ e he)⟩
  · next transaction _ => exact ⟨_, by rw [base36_byte]; rfl⟩
  · exact ⟨none, rfl⟩

theorem describeControl_returns (body : Str) : ∃ control, describeControl body = .ok control := by
  obtain ⟨transaction, htransaction⟩ := decodeControlTransaction_returns body
  rw [describeControl, htransaction]
  split
  · exact ⟨_, rfl⟩
  · split
    · exact ⟨_, rfl⟩
    · split
      · split
        · next e he => exact ⟨none, if_pos (base91Decode_raises _ e he)⟩
        · exact ⟨_, by rw [base36_byte]; rfl⟩
        · exact ⟨none, rfl⟩
      · split
        · exact ⟨_, rfl⟩
        · split
          · exact ⟨_, rfl⟩
          · exact ⟨none, rfl⟩

example : describeControl (str "Q1N:003:0012") =
    .ok (some (str "Q1N transaction=003 missing=2,5 mask=0x0012")) := by decide

/-! ### Calls return -/

namespace APRSFrameDiagnostics

variable {bounds : ReassemblyBounds} {printable : PyChar → Bool}

/-- A fragment: what the table raises is described, and what it returns decodes. -/
theorem describeFragment_spec {s : APRSFrameDiagnostics} (h : s.Sound) {body : Str}
    {fragment : APRSFragment} (hparse : parseFragment body = .ok fragment) (direction : Direction)
    (peer : Str) (now : ℚ) :
    (describeFragment bounds printable direction peer now fragment).Yields s fun outcome s' =>
      s'.Sound ∧ ∃ text, outcome = .ok text ∧ Described printable
        (fun fragment => ((s.reassembler direction).add bounds peer fragment now).1) body text := by
  obtain ⟨hsound, hraises, hframes⟩ :=
    Reassembler.add_sound (h.reassembler direction) hparse bounds peer now
  refine Yields.get_bind ?_
  rcases hadd : (s.reassembler direction).add bounds peer fragment now with ⟨outcome, entries⟩
  rw [hadd] at hsound hraises hframes
  have hset := h.set hsound direction
  have hadded : ((s.reassembler direction).add bounds peer fragment now).1 = outcome := by rw [hadd]
  cases outcome with
  | error e =>
    have he : e.isA .carriageError := hraises e rfl
    simp only [he, true_or, if_true]
    exact ⟨hset, _, rfl, .inconsistent hparse hadded⟩
  | ok frame =>
    cases frame with
    | none => exact ⟨hset, _, rfl, .waiting hparse hadded⟩
    | some frame =>
      obtain ⟨⟨obj, flags⟩, hdecode⟩ := hframes frame rfl
      simp only [hdecode]
      exact ⟨hset, _, rfl, .decoded hparse hadded hdecode⟩

/-- One call: it returns a description, and the tables stay sound. -/
theorem describe_spec {s : APRSFrameDiagnostics} (h : s.Sound) (direction : Direction)
    (peer body : Str) (now : ℚ) :
    (describe bounds printable direction peer body now).Yields s fun outcome s' =>
      s'.Sound ∧ ∃ text, outcome = .ok text ∧ Described printable
        (fun fragment => ((s.reassembler direction).add bounds peer fragment now).1) body text := by
  rw [describe]
  split
  · next messageId hack => exact ⟨h, _, rfl, .ack hack⟩
  obtain ⟨control, hcontrol⟩ := describeControl_returns body
  rw [hcontrol]
  cases control with
  | some control => exact ⟨h, _, rfl, .control hcontrol⟩
  | none =>
    cases hparse : parseFragment body with
    | error e =>
      have he : e.isA .carriageError := parseFragment_raises body e hparse
      simp only [he, true_or, if_true]
      exact ⟨h, none, rfl, .noFragment hparse⟩
    | ok fragment => exact describeFragment_spec h hparse direction peer now

end APRSFrameDiagnostics

/-! ### Runs -/

/-- A call of `describe_received` or of `describe_sent`. -/
structure DescribeCall where
  direction : Direction
  peer : Str
  body : Str
  now : ℚ

/-- The method that a call runs. -/
def DescribeCall.method (bounds : ReassemblyBounds) (printable : PyChar → Bool)
    (call : DescribeCall) : Method PyError APRSFrameDiagnostics (Option Str) :=
  APRSFrameDiagnostics.describe bounds printable call.direction call.peer call.body call.now

/-- The tables before the `i`-th call. -/
def diagnosticsAt (bounds : ReassemblyBounds) (printable : PyChar → Bool)
    (calls : List DescribeCall) (i : ℕ) : APRSFrameDiagnostics :=
  stateAt (fun s call => ((call.method bounds printable).run s).2) {} calls i

/-- The tables that a reassembler can have: fragments that were parsed are added, and old assemblies
are dropped, at any times. -/
inductive Reassembler.Reachable (bounds : ReassemblyBounds) : Reassembler → Prop
  | empty : Reachable bounds .empty
  | expire {entries : Reassembler} (h : Reachable bounds entries) (now : ℚ) :
    Reachable bounds (entries.expire bounds now)
  | add {entries : Reassembler} (h : Reachable bounds entries) {body : Str}
    {fragment : APRSFragment} (parsed : parseFragment body = .ok fragment) (peer : Str) (now : ℚ) :
    Reachable bounds (entries.add bounds peer fragment now).2

theorem Reassembler.Reachable.sound {bounds : ReassemblyBounds} {entries : Reassembler}
    (h : entries.Reachable bounds) : entries.Sound := by
  induction h with
  | empty => exact fun _ he => absurd he List.not_mem_nil
  | expire _ now ih => exact ih.expire bounds now
  | add _ parsed peer now ih => exact (add_sound ih parsed bounds peer now).1

/-- On a table that calls lead to, a parsed fragment raises nothing but a `CarriageError`. -/
theorem Reassembler.Reachable.add_raises {bounds : ReassemblyBounds} {entries : Reassembler}
    (h : entries.Reachable bounds) {body : Str} {fragment : APRSFragment}
    (parsed : parseFragment body = .ok fragment) (peer : Str) (now : ℚ) :
    Raises (·.isA .carriageError) (entries.add bounds peer fragment now).1 :=
  (add_sound h.sound parsed bounds peer now).2.1

theorem diagnosticsAt_sound (bounds : ReassemblyBounds) (printable : PyChar → Bool)
    (calls : List DescribeCall) :
    ∀ i ≤ calls.length, (diagnosticsAt bounds printable calls i).Sound := by
  refine stateAt_invariant (I := fun s : APRSFrameDiagnostics => s.Sound)
    ⟨fun _ he => absurd he List.not_mem_nil, fun _ he => absurd he List.not_mem_nil⟩ ?_
  intro i hi h
  exact (APRSFrameDiagnostics.describe_spec h _ _ _ _).1

/-- Whatever the network sends and the server answers, every call returns a description or nothing.
What it is made of raises at most a `CarriageError`. -/
theorem diagnostics_return (bounds : ReassemblyBounds) (printable : PyChar → Bool) :
    (∀ (calls : List DescribeCall) (i : ℕ) (hi : i < calls.length), ∃ text,
      ((calls[i].method bounds printable).run (diagnosticsAt bounds printable calls i)).1 =
        .ok text ∧
      Described printable (fun fragment =>
        (((diagnosticsAt bounds printable calls i).reassembler calls[i].direction).add bounds
          calls[i].peer fragment calls[i].now).1) calls[i].body text) ∧
    (∀ text, Raises (·.isA .carriageError) (base91Decode text)) ∧
    (∀ body, Raises (·.isA .carriageError) (parseFragment body)) ∧
    (∀ {entries : Reassembler}, entries.Reachable bounds → ∀ {body : Str} {fragment : APRSFragment},
      parseFragment body = .ok fragment → ∀ (peer : Str) (now : ℚ),
        Raises (·.isA .carriageError) (entries.add bounds peer fragment now).1) := by
  refine ⟨fun calls i hi => ?_, base91Decode_raises, parseFragment_raises,
    fun h _ _ parsed => h.add_raises parsed⟩
  have hsound := diagnosticsAt_sound bounds printable calls i hi.le
  exact (APRSFrameDiagnostics.describe_spec hsound _ _ _ _).2

/-- A fragment of Q1 whose data is no frame, as the second call. -/
theorem diagnostics_return_fragment :
    let calls : List DescribeCall := [⟨.tx, str "EA3GNU", str "ack12", 0⟩,
      ⟨.rx, str "EA3GNU", str "Q1:001:00/01:AAAA", 1⟩]
    let bounds : ReassemblyBounds := ⟨120, 128, by decide, by decide⟩
    ∃ text, ((DescribeCall.method bounds (fun _ => true) ⟨.rx, str "EA3GNU",
      str "Q1:001:00/01:AAAA", 1⟩).run (diagnosticsAt bounds (fun _ => true) calls 1)).1 =
        .ok text := by
  intro calls bounds
  obtain ⟨text, htext, -⟩ := (diagnostics_return bounds fun _ => true).1 calls 1 (by decide)
  exact ⟨text, by simpa only [calls, List.getElem_cons_succ, List.getElem_cons_zero] using htext⟩

end OpenQSP
