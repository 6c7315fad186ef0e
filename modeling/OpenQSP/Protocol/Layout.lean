import OpenQSP.Protocol.Failures

/-!
# The layout of a payload

The payload of an operation is a row of fields, numbers of fixed size and fields behind a length
byte. The decoders read the row from the left: a length-prefixed field is checked as soon as it has
been read, the numbers only when the payload has been read to its end. So a payload that breaks off
or runs on is reported as such only if the length-prefixed fields before the break are valid, and
everything else that a decoder raises is an invalid field.

## Main definitions

* `Slot`, `layout` — the fields of each operation, with their limits
* `present`, `intact` — the fields that are there in full, and whether they fill the payload
* `broken` — the payload is not filled, and nothing before the break is invalid

## Main results

* `decodePayload_fault` — which class of exception a payload decoder raises
-/

namespace OpenQSP

open Py

/-! ### Layouts -/

/-- A field of a payload: a number, or bytes behind their length. -/
inductive Slot
  | number (size limit : ℕ)
  | counted (limit : ℕ) (valid : Bytes → Bool)

namespace Slot

/-- The field exceeds its limit. -/
def exceeds : Slot → Bytes → Bool
  | number _ limit, data => limit < fromBigEndian data
  | counted limit _, data => limit < data.length

/-- What is checked as soon as the field has been read. -/
def valid : Slot → Bytes → Bool
  | number _ _, _ => true
  | counted _ valid, data => valid data

/-- A number that only its size limits. -/
def plain (size : ℕ) : Slot := number size (256 ^ size - 1)

def callsign : Slot := counted maxCallsignLength fun data => (decodeCallsign data "callsign").isOk

def text (minimum maximum : ℕ) : Slot :=
  counted maximum fun data => (decodeText data "text" minimum maximum).isOk

end Slot

/-- The fields of the payload of an operation. -/
def layout : Operation → List Slot
  | .sendMessage => [.plain 4, .callsign, .text minMessageBodyLength maxMessageBodyLength]
  | .getNewMessages => [.plain 4, .number 1 maxRetrievalMax]
  | .getNewBulletins => [.plain 4, .number 1 maxRetrievalMax]
  | .getBulletin => [.plain 4]
  | .getCapabilities => []
  | .getMessage => [.callsign, .plain 4]
  | .message => [.plain 4, .plain 4, .plain 4, .callsign, .callsign,
    .text minMessageBodyLength maxMessageBodyLength]
  | .bulletinHeader => [.plain 4, .plain 4, .callsign,
      .text minBulletinTitleLength maxBulletinTitleLength]
  | .bulletin => [.plain 4, .plain 4, .callsign,
      .text minBulletinTitleLength maxBulletinTitleLength,
    .text minBulletinBodyLength maxBulletinBodyLength]
  | .end => [.plain 1, .plain 1, .plain 4, .plain 1]
  | .stored => []
  | .error => [.plain 1, .plain 1, .text 0 maxErrorDetailLength]
  | .capabilities => [.plain 1, .plain 4]

/-- The fields that are there in full, up to the one in which the payload ends. -/
def present : List Slot → Bytes → List (Slot × Bytes)
  | [], _ => []
  | .number size limit :: slots, payload =>
    if payload.length < size then []
    else (.number size limit, payload.take size) :: present slots (payload.drop size)
  | .counted _ _ :: _, [] => []
  | .counted limit valid :: slots, size :: payload =>
    if payload.length < size.toNat then []
    else (.counted limit valid, payload.take size.toNat) :: present slots (payload.drop size.toNat)

/-- The fields fill the payload: it neither ends inside one of them nor goes on behind the last. -/
def intact : List Slot → Bytes → Bool
  | [], payload => payload = []
  | .number size _ :: slots, payload => size ≤ payload.length && intact slots (payload.drop size)
  | .counted _ _ :: _, [] => false
  | .counted _ _ :: slots, size :: payload =>
    size.toNat ≤ payload.length && intact slots (payload.drop size.toNat)

/-- The payload is not filled, and the fields that are there are valid. -/
def broken (slots : List Slot) (payload : Bytes) : Bool :=
  !intact slots payload && (present slots payload).all fun field => field.1.valid field.2

section Broken

variable {slots : List Slot} {size limit : ℕ} {valid : Bytes → Bool} {payload : Bytes}

theorem broken_nil : broken [] payload = !decide (payload = []) :=
  Bool.and_true _

theorem broken_number_short (h : payload.length < size) :
    broken (.number size limit :: slots) payload = true := by
  rw [broken, intact, present, if_pos h, decide_eq_false (Nat.not_le.mpr h)]
  rfl

theorem broken_number (h : size ≤ payload.length) :
    broken (.number size limit :: slots) payload = broken slots (payload.drop size) := by
  rw [broken, intact, present, if_neg (Nat.not_lt.mpr h), decide_eq_true h, Bool.true_and,
    List.all_cons,
    Slot.valid, Bool.true_and]
  rfl

theorem broken_counted_nil : broken (.counted limit valid :: slots) [] = true := rfl

theorem broken_counted_short {byte : UInt8} (h : payload.length < byte.toNat) :
    broken (.counted limit valid :: slots) (byte :: payload) = true := by
  rw [broken, intact, present, if_pos h, decide_eq_false (Nat.not_le.mpr h)]
  rfl

theorem broken_counted {byte : UInt8} (h : byte.toNat ≤ payload.length) :
    broken (.counted limit valid :: slots) (byte :: payload) =
      (valid (payload.take byte.toNat) && broken slots (payload.drop byte.toNat)) := by
  rw [broken, intact, present, if_neg (Nat.not_lt.mpr h), decide_eq_true h, Bool.true_and,
    List.all_cons,
    Slot.valid, Bool.and_left_comm]
  rfl

end Broken

/-! ### What a decoder raises -/

/-- The exception is about the value of a field. -/
def FieldFault (e : PyError) : Prop := e.isA .invalidFieldError

/-- The exception tells a payload that is not filled from a field that is not valid. -/
def Fault (slots : List Slot) (payload : Bytes) (e : PyError) : Prop :=
  if broken slots payload then e.cls = .payloadLengthError else FieldFault e

section Rules

variable {α : Type} {slots : List Slot} {size limit minimum maximum : ℕ} {valid : Bytes → Bool}
  {payload : Bytes} {field : String}

theorem Fault.length {text : String} (h : broken slots payload = true) :
    Fault slots payload (.payloadLength text) := by
  rw [Fault, if_pos h]
  rfl

theorem Fault.value {e : PyError} (h : broken slots payload = false) (he : FieldFault e) :
    Fault slots payload e := by
  rw [Fault, h]
  exact he

theorem Reader.take_fault {k : Bytes × Bytes → Py α}
    (h : ∀ data rest, Raises (Fault slots rest) (k (data, rest))) :
    Raises (Fault (.number size limit :: slots) payload) (Reader.take size field payload >>=
      k) := by
  by_cases hlength : payload.length < size
  · rw [Reader.take, if_pos hlength]
    exact .error (.length (broken_number_short hlength))
  · rw [Reader.take, if_neg hlength]
    intro e he
    rw [Fault, broken_number (Nat.le_of_not_lt hlength)]
    exact h _ _ e he

theorem Reader.u32_fault {k : ℕ × Bytes → Py α}
    (h : ∀ n rest, Raises (Fault slots rest) (k (n, rest))) :
    Raises (Fault (.number 4 limit :: slots) payload) (Reader.u32 field payload >>= k) := by
  rw [Reader.u32, bind_assoc]
  exact Reader.take_fault fun data rest => h _ rest

/-- The length byte and the data behind it, which are checked next. -/
theorem Reader.prefixed_fault {k : Bytes × Bytes → Py α}
    (h : ∀ data rest, Raises (if valid data then Fault slots rest else FieldFault)
      (k (data, rest))) :
    Raises (Fault (.counted limit valid :: slots) payload) (Reader.prefixed field payload >>=
      k) := by
  cases payload with
  | nil => exact .error (.length broken_counted_nil)
  | cons byte payload =>
    have hbyte : fromBigEndian [byte] = byte.toNat := by
      rw [fromBigEndian]
      simp
    have hone : ¬(byte :: payload).length < 1 := Nat.not_lt.mpr (Nat.le_add_left 1 _)
    have hread : Reader.prefixed field (byte :: payload) =
      Reader.take byte.toNat field payload := by
      rw [Reader.prefixed, Reader.u8, Reader.take, if_neg hone]
      show Reader.take (fromBigEndian [byte]) field payload = _
      rw [hbyte]
    rw [hread]
    by_cases hlength : payload.length < byte.toNat
    · rw [Reader.take, if_pos hlength]
      exact .error (.length (broken_counted_short hlength))
    · rw [Reader.take, if_neg hlength]
      intro e he
      have hraise := h (payload.take byte.toNat) (payload.drop byte.toNat) e he
      rw [Fault, broken_counted (Nat.le_of_not_lt hlength)]
      cases hvalid : valid (payload.take byte.toNat) with
      | true =>
        rw [hvalid, if_pos rfl] at hraise
        exact hraise
      | false =>
        rw [hvalid] at hraise
        exact hraise

theorem Reader.finish_fault {k : Unit → Py α} (h : Raises FieldFault (k ())) :
    Raises (Fault [] payload) (Reader.finish payload >>= k) := by
  by_cases hnil : payload = []
  · rw [Reader.finish, if_pos hnil]
    intro e he
    refine .value ?_ (h e he)
    rw [broken_nil, decide_eq_true hnil]
    rfl
  · rw [Reader.finish, if_neg hnil]
    refine .error (.length ?_)
    rw [broken_nil, decide_eq_false hnil]
    rfl

/-- A row of numbers is filled by exactly their sizes. -/
theorem broken_numbers {sizes : List (ℕ × ℕ)} :
    broken (sizes.map fun p => .number p.1 p.2) payload =
      !decide (payload.length = (sizes.map Prod.fst).sum) := by
  induction sizes generalizing payload with
  | nil =>
    rw [List.map_nil, List.map_nil, broken_nil, List.sum_nil]
    simp only [List.length_eq_zero_iff]
  | cons p sizes ih =>
    rw [List.map_cons, List.map_cons, List.sum_cons]
    by_cases hlength : payload.length < p.1
    · rw [broken_number_short hlength, decide_eq_false (by omega)]
      rfl
    · rw [broken_number (Nat.le_of_not_lt hlength), ih, List.length_drop]
      congr 2
      exact propext ⟨fun h => by omega, fun h => by omega⟩

theorem requireExact_fault (sizes : List (ℕ × ℕ)) {k : Unit → Py α} (h : Raises FieldFault (k ())) :
    Raises (Fault (sizes.map fun p => .number p.1 p.2) payload)
      (requireExact payload (sizes.map Prod.fst).sum field >>= k) := by
  by_cases hlength : payload.length = (sizes.map Prod.fst).sum
  · rw [requireExact, if_pos hlength]
    intro e he
    refine .value ?_ (h e he)
    rw [broken_numbers, decide_eq_true hlength]
    rfl
  · rw [requireExact, if_neg hlength]
    refine .error (.length ?_)
    rw [broken_numbers, decide_eq_false hlength]
    rfl

/-- A field that is decoded where it has been read: what follows is only reached if it is valid. -/
theorem Raises.checked {P : PyError → Prop} {x : Py Str} {b : Bool} {k : Str → Py α}
    (hb : x.isOk = b)
    (hx : Raises FieldFault x) (hk : ∀ value, Raises P (k value)) :
    Raises (if b then P else FieldFault) (x >>= k) := by
  subst hb
  cases x with
  | error e => exact .error (hx e rfl)
  | ok value => exact hk value

end Rules

theorem integer_fault (n : ℤ) (bits : ℕ) (field : String) (nonzero : Bool) :
    Raises FieldFault (integer n bits field nonzero) := .ite (.ok _) (.error rfl)

theorem decodeText_fault (data : Bytes) (field : String) (minimum maximum : ℕ) :
    Raises FieldFault (decodeText data field minimum maximum) := by
  refine .ite (.error rfl) (.ite (.error rfl) ?_)
  split
  · exact .ok _
  · exact .error rfl

theorem callsignBytes_fault (value : Str) (field : String) :
    Raises FieldFault (callsignBytes value field) := by
  refine Raises.bind ?_ fun _ => Raises.bind (.check rfl) fun _ =>
    Raises.bind (.check rfl) fun _ => .ok _
  rw [textBytes]
  split
  · exact .error rfl
  · exact .ite (.error rfl) (.ite (.error rfl) (.ite (.error rfl) (.ok _)))

theorem decodeCallsign_fault (data : Bytes) (field : String) :
    Raises FieldFault (decodeCallsign data field) := by
  rw [decodeCallsign]
  split
  · exact .error rfl
  · exact (callsignBytes_fault _ _).bind fun _ => .ok _

/-- Whether a field is valid does not depend on its name, which is only for the text. -/
theorem isOk_decodeText (data : Bytes) (field field' : String) (minimum maximum : ℕ) :
    (decodeText data field minimum maximum).isOk =
      (decodeText data field' minimum maximum).isOk := by
  rw [decodeText, decodeText]
  split
  · rfl
  · split
    · rfl
    · split
      · rfl
      · rfl

theorem isOk_eq_iff {α : Type} {x y : Py α} : x.isOk = y.isOk ↔
    ((∃ a, x = .ok a) ↔ ∃ a, y = .ok a) := by
  cases x with
  | error e => cases y with
    | error e' => simp [Except.isOk, Except.toBool]
    | ok b => simp [Except.isOk, Except.toBool]
  | ok a => cases y with
    | error e' => simp [Except.isOk, Except.toBool]
    | ok b => simp [Except.isOk, Except.toBool]

theorem isOk_decodeCallsign (data : Bytes) (field field' : String) :
    (decodeCallsign data field).isOk = (decodeCallsign data field').isOk := by
  rw [decodeCallsign, decodeCallsign]
  cases decodeAscii data with
  | none => rfl
  | some value =>
    have hiff : (∃ data, callsignBytes value field = .ok data) ↔
        ∃ data, callsignBytes value field' = .ok data :=
      (exists_callsignBytes field).trans (exists_callsignBytes field').symm
    rw [isOk_eq_iff]
    simp only [bind_eq_ok, pure_eq_ok, Except.ok.injEq]
    constructor
    · rintro ⟨_, data, hdata, -⟩
      obtain ⟨data', hdata'⟩ := hiff.mp ⟨data, hdata⟩
      exact ⟨value, data', hdata', rfl⟩
    · rintro ⟨_, data, hdata, -⟩
      obtain ⟨data', hdata'⟩ := hiff.mpr ⟨data, hdata⟩
      exact ⟨value, data', hdata', rfl⟩

section Fields

variable {α : Type} {slots : List Slot} {minimum maximum : ℕ} {payload : Bytes} {field : String}

/-- A callsign that has just been read, and what follows it. -/
theorem decodeCallsign_checked {P : PyError → Prop} {data : Bytes} {k : Str → Py α}
    (hk : ∀ value, Raises P (k value)) :
    Raises (if (decodeCallsign data "callsign").isOk then P else FieldFault)
      (decodeCallsign data field >>= k) :=
  .checked (isOk_decodeCallsign data _ _) (decodeCallsign_fault data field) hk

theorem decodeText_checked {P : PyError → Prop} {data : Bytes} {k : Str → Py α}
    (hk : ∀ value, Raises P (k value)) :
    Raises (if (decodeText data "text" minimum maximum).isOk then P else FieldFault)
      (decodeText data field minimum maximum >>= k) :=
  .checked (isOk_decodeText data _ _ _ _) (decodeText_fault data field minimum maximum) hk

end Fields

/-! ### The decoders -/

theorem decodeRetrieval_fault (payload : Bytes) (name : String) :
    Raises (Fault [.plain 4, .number 1 maxRetrievalMax] payload) (decodeRetrieval payload name) :=
  requireExact_fault [(4, 256 ^ 4 - 1), (1, maxRetrievalMax)]
    (Raises.bind (.check rfl) fun _ => .ok _)

/-- What a payload decoder raises is found from the layout of the operation. -/
theorem decodePayload_fault {op : Operation} (hop : op ≠ .getMessage) (payload : Bytes) :
    Raises (Fault (layout op) payload) (decodePayload op payload) := by
  cases op with
  | getMessage => exact absurd rfl hop
  | sendMessage =>
    refine Reader.u32_fault fun _ _ => ?_
    refine Reader.prefixed_fault fun _ _ => decodeCallsign_checked fun _ => ?_
    refine Reader.prefixed_fault fun _ _ => decodeText_checked fun _ => ?_
    exact Reader.finish_fault (Raises.bind (integer_fault _ _ _ _) fun _ => .ok _)
  | getNewMessages => exact Raises.bind (decodeRetrieval_fault payload _) fun _ => .ok _
  | getNewBulletins => exact Raises.bind (decodeRetrieval_fault payload _) fun _ => .ok _
  | getBulletin =>
    exact requireExact_fault [(4, 256 ^ 4 - 1)] (Raises.bind (integer_fault _ _ _ _) fun _ => .ok _)
  | getCapabilities => exact requireExact_fault [] (.ok _)
  | capabilities => exact requireExact_fault [(1, 255), (4, 256 ^ 4 - 1)] (.ok _)
  | stored => exact requireExact_fault [] (.ok _)
  | message =>
    refine Reader.u32_fault fun _ _ => Reader.u32_fault fun _ _ => Reader.u32_fault fun _ _ => ?_
    refine Reader.prefixed_fault fun _ _ => decodeCallsign_checked fun _ => ?_
    refine Reader.prefixed_fault fun _ _ => decodeCallsign_checked fun _ => ?_
    refine Reader.prefixed_fault fun _ _ => decodeText_checked fun _ => ?_
    refine Reader.finish_fault (Raises.bind (integer_fault _ _ _ _) fun _ => ?_)
    exact Raises.bind (integer_fault _ _ _ _) fun _ =>
      Raises.bind (integer_fault _ _ _ _) fun _ => .ok _
  | bulletinHeader =>
    refine Reader.u32_fault fun _ _ => Reader.u32_fault fun _ _ => ?_
    refine Reader.prefixed_fault fun _ _ => decodeCallsign_checked fun _ => ?_
    refine Reader.prefixed_fault fun _ _ => decodeText_checked fun _ => ?_
    refine Reader.finish_fault (Raises.bind (integer_fault _ _ _ _) fun _ => ?_)
    exact Raises.bind (integer_fault _ _ _ _) fun _ => .ok _
  | bulletin =>
    refine Reader.u32_fault fun _ _ => Reader.u32_fault fun _ _ => ?_
    refine Reader.prefixed_fault fun _ _ => decodeCallsign_checked fun _ => ?_
    refine Reader.prefixed_fault fun _ _ => decodeText_checked fun _ => ?_
    refine Reader.prefixed_fault fun _ _ => decodeText_checked fun _ => ?_
    refine Reader.finish_fault (Raises.bind (integer_fault _ _ _ _) fun _ => ?_)
    exact Raises.bind (integer_fault _ _ _ _) fun _ => .ok _
  | «end» =>
    refine requireExact_fault [(1, 255), (1, 255), (4, 256 ^ 4 - 1), (1, 255)] ?_
    split
    · exact .error rfl
    · exact Raises.bind (.check rfl) fun _ => Raises.bind (.check rfl) fun _ => .ok _
  | error =>
    refine Reader.take_fault fun _ _ => Reader.take_fault fun _ _ => ?_
    refine Reader.prefixed_fault fun _ _ => decodeText_checked fun _ => ?_
    refine Reader.finish_fault (Raises.bind ?_ fun _ => ?_)
    · refine .ite (.ok _) ?_
      split
      · exact .ok _
      · exact .error rfl
    · split
      · exact .ok _
      · exact .error rfl

end OpenQSP
