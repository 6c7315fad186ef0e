import OpenQSP.Protocol.Layout
import OpenQSP.Server.Core

/-!
# The error code of a frame that is not decoded

The protocol document says which `ERROR` answers which defect of a frame. The node infers the code
from the class of the exception and from the bytes of the header. The document is a function of the
frame here, and the two are compared on every frame of at least four bytes.

They agree except where the order of the checks shows through. A frame above the size limit is
refused before its version and its operation are looked at; a field above its limit raises the same
class as any other invalid field, so `TOO_LARGE` is never answered; and a field that is invalid is
reported before a break that only the fields behind it would reveal.

## Main definitions

* `documentedError` — the operation and the code that the document asks for
* `Classified` — the frames for which the node answers them

## Main results

* `handleFrame_documented_iff`
-/

namespace OpenQSP

open Py

/-! ### The document -/

/-- A field of the payload exceeds its limit. -/
def exceedsLimit (op : Operation) (payload : Bytes) : Bool :=
  (present (layout op) payload).any fun field => field.1.exceeds field.2

/-- The operation and the code of the `ERROR` for a frame that is not a request: the version first,
then the operation, the framing, the limits, and any other field. -/
def documentedError (frame : Bytes) : Option Operation × ErrorCode :=
  if frame.getD 0 0 ≠ protocolVersion then (none, .unsupportedVersion)
  else match Operation.ofCode (frame.getD 1 0) with
    | none => (none, .unknownOperation)
    | some op =>
      if frame.getD 2 0 ≠ 0 ∨ frame.length - headerSize ≠ (frame.getD 3 0).toNat ∨
          ¬intact (layout op) (frame.drop headerSize) then (some op, .invalidFrame)
      else if exceedsLimit op (frame.drop headerSize) then (some op, .tooLarge)
      else (some op, .invalidField)

/-! ### The condition -/

/-- The length byte of the peer is that of a callsign. -/
def PeerLength (payload : Bytes) : Prop :=
  minCallsignLength ≤ (payload.getD 0 0).toNat ∧ (payload.getD 0 0).toNat ≤ maxCallsignLength

/-- The point lookup looks at the length byte of its peer first. -/
def LookupClassified (payload : Bytes) : Prop :=
  if payload.length < 1 + minCallsignLength + 4 then ¬intact (layout .getMessage) payload
  else PeerLength payload

/-- Where the payload is filled no field exceeds its limit, and where it is not the fields that are
there are valid. -/
def PayloadClassified (op : Operation) (payload : Bytes) : Prop :=
  if op = .getMessage then LookupClassified payload
  else if intact (layout op) payload then ¬exceedsLimit op payload
  else (present (layout op) payload).all fun field => field.1.valid field.2

/-- The frame is not too long to be looked at, and its payload shows its defect in order. -/
def Classified (frame : Bytes) : Prop :=
  (frame.length ≤ maxFrameSize ∨
    frame.getD 0 0 = protocolVersion ∧ Operation.ofCode (frame.getD 1 0) ≠ none) ∧
  ∀ op, frame.getD 0 0 = protocolVersion → Operation.ofCode (frame.getD 1 0) = some op →
    frame.getD 2 0 = 0 → frame.length - headerSize = (frame.getD 3 0).toNat →
    PayloadClassified op (frame.drop headerSize)

/-! ### What is answered -/

/-- The operation that is named, where the version lets it be read. -/
def namedOperation (frame : Bytes) : Option Operation :=
  if frame.getD 0 0 = 1 then Operation.ofCode (frame.getD 1 0) else none

section Response

variable {frame : Bytes} {e : PyError}

theorem FieldFault.cls (h : FieldFault e) : e.cls = .invalidFieldError ∨
    e.cls = .fieldTooLongError := by
  obtain ⟨cls, text⟩ := e
  cases cls with
  | invalidFieldError => exact .inl rfl
  | fieldTooLongError => exact .inr rfl
  | _ => exact absurd h (by simp [FieldFault, PyError.isA, ErrorClass.isA, ErrorClass.bases])

theorem decodeErrorResponse_field (hlength : 4 ≤ frame.length) (h : FieldFault e) :
    decodeErrorResponse frame e = some ⟨namedOperation frame,
      if frame.getD 2 0 ≠ 0 then .invalidFrame else .invalidField, (str e.text).take 64⟩ := by
  have hversion : e.isA .unsupportedVersionError = false := by
    rcases h.cls with h | h
    · rw [PyError.isA, h]
      rfl
    · rw [PyError.isA, h]
      rfl
  have hoperation : e.isA .unknownOperationError = false := by
    rcases h.cls with h | h
    · rw [PyError.isA, h]
      rfl
    · rw [PyError.isA, h]
      rfl
  rw [decodeErrorResponse, if_neg (Nat.not_lt.mpr hlength), hversion, hoperation,
    if_neg Bool.false_ne_true,
    if_neg Bool.false_ne_true, namedOperation]
  split
  · next hflags => rw [if_pos hflags.2]
  · next hflags =>
    rw [if_pos (show e.isA .invalidFieldError = true from h), if_neg fun hzero => hflags ⟨h, hzero⟩]

theorem decodeErrorResponse_length (hlength : 4 ≤ frame.length) (h : e.cls = .payloadLengthError) :
    decodeErrorResponse frame e =
      some ⟨namedOperation frame, .invalidFrame, (str e.text).take 64⟩ := by
  obtain ⟨cls, text⟩ := e
  obtain rfl : cls = _ := h
  rw [decodeErrorResponse, if_neg (Nat.not_lt.mpr hlength)]
  rfl

theorem decodeErrorResponse_version (hlength : 4 ≤ frame.length)
    (h : e.cls = .unsupportedVersionError) :
    decodeErrorResponse frame e = some ⟨none, .unsupportedVersion, (str e.text).take 64⟩ := by
  obtain ⟨cls, text⟩ := e
  obtain rfl : cls = _ := h
  rw [decodeErrorResponse, if_neg (Nat.not_lt.mpr hlength)]
  rfl

theorem decodeErrorResponse_operation (hlength : 4 ≤ frame.length)
    (h : e.cls = .unknownOperationError) :
    decodeErrorResponse frame e = some ⟨none, .unknownOperation, (str e.text).take 64⟩ := by
  obtain ⟨cls, text⟩ := e
  obtain rfl : cls = _ := h
  rw [decodeErrorResponse, if_neg (Nat.not_lt.mpr hlength)]
  rfl

end Response

/-! ### What is raised -/

/-- The defects of a header, in the order of the checks. -/
inductive HeaderFault (frame : Bytes) (e : PyError) : Prop
  | size (h : maxFrameSize < frame.length) (he : e.cls = .payloadLengthError)
  | version (h : frame.length ≤ maxFrameSize) (hversion : frame.getD 0 0 ≠ protocolVersion)
    (he : e.cls = .unsupportedVersionError)
  | operation (h : frame.length ≤ maxFrameSize) (hversion : frame.getD 0 0 = protocolVersion)
    (hoperation : Operation.ofCode (frame.getD 1 0) = none) (he : e.cls = .unknownOperationError)
  | flags (op : Operation) (hversion : frame.getD 0 0 = protocolVersion)
    (hoperation : Operation.ofCode (frame.getD 1 0) = some op) (h : frame.getD 2 0 ≠ 0)
      (he : FieldFault e)
  | length (op : Operation) (hversion : frame.getD 0 0 = protocolVersion)
    (hoperation : Operation.ofCode (frame.getD 1 0) = some op)
    (h : frame.length - headerSize ≠ (frame.getD 3 0).toNat) (he : e.cls = .payloadLengthError)

theorem and_not_zero (flags : UInt8) : flags &&& ~~~0 = flags := by
  have hall : ∀ n : Fin 256, UInt8.ofFin n &&& ~~~0 = UInt8.ofFin n := by decide +kernel
  exact hall flags.toFin

/-- A check raised, or it passed and what follows raised. -/
theorem raiseIf_bind_error {α : Type} {p : Prop} [Decidable p] {e e' : PyError} {f : Unit → Py α}
    (h : (raiseIf p e' >>= f) = .error e) : p ∧ e = e' ∨ ¬p ∧ f () = .error e := by
  by_cases hp : p
  · rw [raiseIf, if_pos hp] at h
    exact .inl ⟨hp, (Except.error.inj h).symm⟩
  · rw [raiseIf_of_not hp] at h
    exact .inr ⟨hp, h⟩

theorem decodeHeader_error {frame : Bytes} {e : PyError} (hlength : 4 ≤ frame.length)
    (h : decodeHeader frame false = .error e) : HeaderFault frame e := by
  rcases raiseIf_bind_error h with ⟨hshort, -⟩ | ⟨-, h⟩
  · exact absurd hlength (Nat.not_le.mpr hshort)
  rcases raiseIf_bind_error h with ⟨hsize, rfl⟩ | ⟨hsize, h⟩
  · exact .size hsize rfl
  rw [Nat.not_lt] at hsize
  rcases raiseIf_bind_error h with ⟨hversion, rfl⟩ | ⟨hversion, h⟩
  · exact .version hsize hversion rfl
  rw [not_not] at hversion
  cases hoperation : Operation.ofCode (frame.getD 1 0) with
  | none =>
    rw [hoperation] at h
    obtain rfl := Except.error.inj h
    exact .operation hsize hversion hoperation rfl
  | some op =>
    rw [hoperation] at h
    rcases raiseIf_bind_error h with ⟨hflags, rfl⟩ | ⟨hflags, h⟩
    · refine .flags op hversion hoperation (fun hzero => hflags ?_) rfl
      exact (and_not_zero _).trans hzero
    rcases raiseIf_bind_error h with ⟨⟨hflag, -⟩, rfl⟩ | ⟨-, h⟩
    · refine .flags op hversion hoperation (fun hzero => hflag ?_) rfl
      rw [hzero]
      rfl
    rcases raiseIf_bind_error h with ⟨hactual, rfl⟩ | ⟨-, h⟩
    · exact .length op hversion hoperation hactual rfl
    · exact nomatch h

/-- No flag is set, and the payload is as long as it is declared to be. -/
def HeaderSound (frame : Bytes) : Prop :=
  frame.getD 2 0 = 0 ∧ frame.length - headerSize = (frame.getD 3 0).toNat

/-- A header that is accepted without flags. -/
theorem decodeHeader_sound {frame payload : Bytes} {op : Operation} {flags : UInt8}
    (h : decodeHeader frame false = .ok (op, flags, payload)) : frame.getD 0 0 = protocolVersion ∧
      Operation.ofCode (frame.getD 1 0) = some op ∧ HeaderSound frame ∧
      payload = frame.drop headerSize := by
  simp only [decodeHeader, bind_eq_ok, raiseIf_eq_ok, not_not] at h
  obtain ⟨_, -, _, -, _, hversion, h⟩ := h
  cases hoperation : Operation.ofCode (frame.getD 1 0) with
  | none =>
    rw [hoperation] at h
    cases h
  | some operation =>
    rw [hoperation] at h
    simp only [bind_eq_ok, raiseIf_eq_ok, not_not, Bool.false_eq_true, if_false, and_not_zero] at h
    obtain ⟨_, hflags, _, -, _, hactual, h⟩ := h
    obtain ⟨rfl, -, rfl⟩ := Prod.mk.inj (Except.ok.inj h) |>.imp_right Prod.mk.inj
    exact ⟨hversion, rfl, ⟨hflags, hactual⟩, rfl⟩

/-- The defects of a point lookup, in the order of the checks. -/
inductive LookupFault (frame : Bytes) (e : PyError) : Prop
  | flags (h : frame.getD 2 0 ≠ 0) (he : FieldFault e)
  | length (h : frame.length - headerSize ≠ (frame.getD 3 0).toNat)
      (he : e.cls = .payloadLengthError)
  | short (hheader : HeaderSound frame)
    (h : (frame.drop headerSize).length < 1 + minCallsignLength + 4)
      (he : e.cls = .payloadLengthError)
  | peer (hheader : HeaderSound frame)
    (hlong : ¬(frame.drop headerSize).length < 1 + minCallsignLength + 4)
    (h : ¬PeerLength (frame.drop headerSize)) (he : FieldFault e)
  | trailing (hheader : HeaderSound frame)
    (hlong : ¬(frame.drop headerSize).length < 1 + minCallsignLength + 4)
    (hpeer : PeerLength (frame.drop headerSize))
    (h : (frame.drop headerSize).length ≠ 1 + ((frame.drop headerSize).getD 0 0).toNat + 4)
    (he : e.cls = .payloadLengthError)
  | value (hheader : HeaderSound frame)
    (hlong : ¬(frame.drop headerSize).length < 1 + minCallsignLength + 4)
    (hpeer : PeerLength (frame.drop headerSize))
    (h : (frame.drop headerSize).length = 1 + ((frame.drop headerSize).getD 0 0).toNat + 4)
    (he : FieldFault e)

theorem decodeGetMessageFrame_error {frame : Bytes} {e : PyError} (hlength : 4 ≤ frame.length)
    (hselect : isGetMessageFrame frame = true) (h : decodeGetMessageFrame frame = .error e) :
    LookupFault frame e := by
  simp only [isGetMessageFrame, Bool.and_eq_true, decide_eq_true_eq] at hselect
  rcases raiseIf_bind_error h with ⟨hshort, -⟩ | ⟨-, h⟩
  · exact absurd hlength (Nat.not_le.mpr hshort)
  rcases raiseIf_bind_error h with ⟨hheader, rfl⟩ | ⟨hflags, h⟩
  · refine .flags ?_ rfl
    rcases hheader with hversion | hoperation | hflags
    · exact absurd hselect.1.2 hversion
    · exact absurd hselect.2 hoperation
    · exact hflags
  rcases raiseIf_bind_error h with ⟨hactual, rfl⟩ | ⟨hactual, h⟩
  · refine .length (fun heq => hactual ?_) rfl
    rw [List.length_drop, heq]
  have hheader : HeaderSound frame := by
    rw [not_or, not_or, not_not, not_not, not_not] at hflags
    rw [not_not, List.length_drop] at hactual
    exact ⟨hflags.2.2, hactual.symm⟩
  rcases raiseIf_bind_error h with ⟨hshort, rfl⟩ | ⟨hlong, h⟩
  · exact .short hheader hshort rfl
  rcases raiseIf_bind_error h with ⟨hpeer, rfl⟩ | ⟨hpeer, h⟩
  · exact .peer hheader hlong hpeer rfl
  rw [not_not] at hpeer
  rcases raiseIf_bind_error h with ⟨htrailing, rfl⟩ | ⟨htrailing, h⟩
  · exact .trailing hheader hlong hpeer htrailing rfl
  rw [not_not] at htrailing
  refine .value hheader hlong hpeer htrailing ?_
  refine (?_ : Raises FieldFault _) e h
  split
  · exact .error rfl
  · exact Raises.bind (.check rfl) fun _ => Raises.bind (.check rfl) fun _ => .ok _

/-! ### The comparison -/

section Header

variable {frame : Bytes} {op : Operation} (hversion : frame.getD 0 0 = protocolVersion)
  (hoperation : Operation.ofCode (frame.getD 1 0) = some op)
include hversion hoperation

theorem namedOperation_eq : namedOperation frame = some op :=
  (if_pos hversion).trans hoperation

theorem documentedError_header
    (h : frame.getD 2 0 ≠ 0 ∨ frame.length - headerSize ≠ (frame.getD 3 0).toNat) :
    documentedError frame = (some op, .invalidFrame) := by
  rw [documentedError, if_neg (not_not.mpr hversion), hoperation]
  exact if_pos (h.imp_right .inl)

theorem classified_header
    (h : frame.getD 2 0 ≠ 0 ∨ frame.length - headerSize ≠ (frame.getD 3 0).toNat) :
      Classified frame := by
  refine ⟨.inr ⟨hversion, by rw [hoperation]; exact Option.some_ne_none op⟩, ?_⟩
  intro _ _ _ hflags hactual
  exact absurd h (not_or.mpr ⟨not_not.mpr hflags, not_not.mpr hactual⟩)

theorem documentedError_broken (h : ¬intact (layout op) (frame.drop headerSize)) :
    documentedError frame = (some op, .invalidFrame) := by
  rw [documentedError, if_neg (not_not.mpr hversion), hoperation]
  exact if_pos (.inr (.inr h))

variable (hflags : frame.getD 2 0 = 0) (hactual : frame.length - headerSize =
    (frame.getD 3 0).toNat)
include hflags hactual

theorem documentedError_exceeds (h : intact (layout op) (frame.drop headerSize))
    (hexceeds : exceedsLimit op (frame.drop headerSize)) :
    documentedError frame = (some op, .tooLarge) := by
  rw [documentedError, if_neg (not_not.mpr hversion), hoperation]
  dsimp only
  rw [if_neg, if_pos hexceeds]
  exact not_or.mpr ⟨not_not.mpr hflags, not_or.mpr ⟨not_not.mpr hactual, not_not.mpr h⟩⟩

theorem documentedError_field (h : intact (layout op) (frame.drop headerSize))
    (hexceeds : ¬exceedsLimit op (frame.drop headerSize)) :
    documentedError frame = (some op, .invalidField) := by
  rw [documentedError, if_neg (not_not.mpr hversion), hoperation]
  dsimp only
  rw [if_neg, if_neg hexceeds]
  exact not_or.mpr ⟨not_not.mpr hflags, not_or.mpr ⟨not_not.mpr hactual, not_not.mpr h⟩⟩

/-- Behind a sound header the payload decides. -/
theorem classified_iff : Classified frame ↔ PayloadClassified op (frame.drop headerSize) := by
  constructor
  · intro h
    exact h.2 op hversion hoperation hflags hactual
  · intro h
    refine ⟨.inr ⟨hversion, by rw [hoperation]; exact Option.some_ne_none op⟩, ?_⟩
    intro op' _ hoperation' _ _
    obtain rfl := Option.some.inj (hoperation.symm.trans hoperation')
    exact h

end Header

theorem intact_lookup {payload : Bytes} : intact (layout .getMessage) payload ↔
    payload.length = 1 + (payload.getD 0 0).toNat + 4 := by
  cases payload with
  | nil => simp [layout, Slot.callsign, intact]
  | cons byte payload =>
    simp only [layout, Slot.callsign, Slot.plain, intact, Bool.and_eq_true, decide_eq_true_eq,
      List.length_drop, List.drop_eq_nil_iff, List.drop_drop, List.length_cons, List.getD_cons_zero]
    omega

theorem exceedsLimit_lookup {payload : Bytes}
    (h : payload.length = 1 + (payload.getD 0 0).toNat + 4) :
    exceedsLimit .getMessage payload ↔ maxCallsignLength < (payload.getD 0 0).toNat := by
  cases payload with
  | nil => simp at h
  | cons byte payload =>
    rw [List.length_cons, List.getD_cons_zero] at h
    have hpresent : present (layout .getMessage) (byte :: payload) =
        [(.callsign, payload.take byte.toNat), (.plain 4, (payload.drop byte.toNat).take 4)] := by
      rw [layout, Slot.callsign, present, if_neg (by omega), Slot.plain, present, if_neg, present]
      rw [List.length_drop]
      omega
    have hnumber : ¬256 ^ 4 - 1 < fromBigEndian ((payload.drop byte.toNat).take 4) := by
      have hlt := fromBigEndian_lt ((payload.drop byte.toNat).take 4)
      have hlength : ((payload.drop byte.toNat).take 4).length = 4 := by
        rw [List.length_take, List.length_drop]
        omega
      rw [hlength] at hlt
      omega
    have hpeer : (payload.take byte.toNat).length = byte.toNat := by
      rw [List.length_take]
      omega
    rw [exceedsLimit, hpresent, List.getD_cons_zero]
    simp only [List.any_cons, List.any_nil, Bool.or_false, Bool.or_eq_true, Slot.exceeds,
      Slot.callsign,
      Slot.plain, decide_eq_true_eq, hpeer]
    exact or_iff_left hnumber

section Comparison

variable {frame : Bytes} {e : PyError} (hlength : 4 ≤ frame.length)
include hlength

theorem lookupFault_documented (hversion : frame.getD 0 0 = protocolVersion)
    (hoperation : Operation.ofCode (frame.getD 1 0) = some .getMessage) (h : LookupFault frame e) :
    ∃ code, decodeErrorResponse frame e = some ⟨some .getMessage, code, (str e.text).take 64⟩ ∧
      ((some .getMessage, code) = documentedError frame ↔ Classified frame) := by
  have hnamed := namedOperation_eq hversion hoperation
  cases h with
  | flags h he =>
    rw [decodeErrorResponse_field hlength he, if_pos h, hnamed,
      documentedError_header hversion hoperation (.inl h)]
    exact ⟨_, rfl, iff_of_true rfl (classified_header hversion hoperation (.inl h))⟩
  | length h he =>
    rw [decodeErrorResponse_length hlength he, hnamed,
      documentedError_header hversion hoperation (.inr h)]
    exact ⟨_, rfl, iff_of_true rfl (classified_header hversion hoperation (.inr h))⟩
  | short hheader h he =>
    rw [decodeErrorResponse_length hlength he, hnamed,
      classified_iff hversion hoperation hheader.1 hheader.2, PayloadClassified, if_pos rfl,
      LookupClassified, if_pos h]
    refine ⟨_, rfl, ?_⟩
    by_cases hintact : intact (layout .getMessage) (frame.drop headerSize)
    · -- A short peer of the right size: the document asks for an invalid field.
      refine iff_of_false ?_ (not_not.mpr hintact)
      by_cases hexceeds : exceedsLimit .getMessage (frame.drop headerSize)
      · rw [documentedError_exceeds hversion hoperation hheader.1 hheader.2 hintact hexceeds]
        simp
      · rw [documentedError_field hversion hoperation hheader.1 hheader.2 hintact hexceeds]
        simp
    · rw [documentedError_broken hversion hoperation hintact]
      exact iff_of_true rfl hintact
  | peer hheader hlong h he =>
    rw [decodeErrorResponse_field hlength he, if_neg (not_not.mpr hheader.1), hnamed,
      classified_iff hversion hoperation hheader.1 hheader.2, PayloadClassified, if_pos rfl,
      LookupClassified, if_neg hlong]
    refine ⟨_, rfl, iff_of_false ?_ h⟩
    by_cases hintact : intact (layout .getMessage) (frame.drop headerSize)
    · have hsize := intact_lookup.mp hintact
      have hexceeds : exceedsLimit .getMessage (frame.drop headerSize) := by
        rw [exceedsLimit_lookup hsize]
        rw [PeerLength] at h
        omega
      rw [documentedError_exceeds hversion hoperation hheader.1 hheader.2 hintact hexceeds]
      simp
    · rw [documentedError_broken hversion hoperation hintact]
      simp
  | trailing hheader hlong hpeer h he =>
    rw [decodeErrorResponse_length hlength he, hnamed,
      classified_iff hversion hoperation hheader.1 hheader.2, PayloadClassified, if_pos rfl,
      LookupClassified, if_neg hlong,
      documentedError_broken hversion hoperation fun hintact => h (intact_lookup.mp hintact)]
    exact ⟨_, rfl, iff_of_true rfl hpeer⟩
  | value hheader hlong hpeer h he =>
    have hexceeds : ¬exceedsLimit .getMessage (frame.drop headerSize) := by
      rw [exceedsLimit_lookup h]
      exact Nat.not_lt.mpr hpeer.2
    rw [decodeErrorResponse_field hlength he, if_neg (not_not.mpr hheader.1), hnamed,
      classified_iff hversion hoperation hheader.1 hheader.2, PayloadClassified, if_pos rfl,
      LookupClassified, if_neg hlong,
      documentedError_field hversion hoperation hheader.1 hheader.2 (intact_lookup.mpr h) hexceeds]
    exact ⟨_, rfl, iff_of_true rfl hpeer⟩

theorem headerFault_documented (h : HeaderFault frame e) :
    ∃ op code, decodeErrorResponse frame e = some ⟨op, code, (str e.text).take 64⟩ ∧
      ((op, code) = documentedError frame ↔ Classified frame) := by
  cases h with
  | size h he =>
    rw [decodeErrorResponse_length hlength he]
    refine ⟨_, _, rfl, ?_⟩
    by_cases hversion : frame.getD 0 0 = protocolVersion
    · cases hoperation : Operation.ofCode (frame.getD 1 0) with
      | none =>
        refine iff_of_false ?_ fun hclassified => ?_
        · rw [documentedError, if_neg (not_not.mpr hversion), hoperation]
          simp
        · rcases hclassified.1 with hsize | ⟨-, hsome⟩
          · exact absurd h (Nat.not_lt.mpr hsize)
          · exact hsome hoperation
      | some op =>
        have hactual : frame.length - headerSize ≠ (frame.getD 3 0).toNat := by
          have hbyte := (frame.getD 3 0).toNat_lt
          rw [maxFrameSize, maxPayloadSize] at h
          omega
        rw [namedOperation_eq hversion hoperation,
          documentedError_header hversion hoperation (.inr hactual)]
        exact iff_of_true rfl (classified_header hversion hoperation (.inr hactual))
    · refine iff_of_false ?_ fun hclassified => ?_
      · rw [documentedError, if_pos hversion]
        simp
      · rcases hclassified.1 with hsize | ⟨heq, -⟩
        · exact absurd h (Nat.not_lt.mpr hsize)
        · exact hversion heq
  | version h hversion he =>
    rw [decodeErrorResponse_version hlength he, documentedError, if_pos hversion]
    exact ⟨_, _, rfl, iff_of_true rfl ⟨.inl h, fun _ heq => absurd heq hversion⟩⟩
  | operation h hversion hoperation he =>
    rw [decodeErrorResponse_operation hlength he, documentedError, if_neg (not_not.mpr hversion),
      hoperation]
    refine ⟨_, _, rfl, iff_of_true rfl ⟨.inl h, fun _ _ heq => ?_⟩⟩
    cases hoperation.symm.trans heq
  | flags op hversion hoperation h he =>
    rw [decodeErrorResponse_field hlength he, if_pos h, namedOperation_eq hversion hoperation,
      documentedError_header hversion hoperation (.inl h)]
    exact ⟨_, _, rfl, iff_of_true rfl (classified_header hversion hoperation (.inl h))⟩
  | length op hversion hoperation h he =>
    rw [decodeErrorResponse_length hlength he, namedOperation_eq hversion hoperation,
      documentedError_header hversion hoperation (.inr h)]
    exact ⟨_, _, rfl, iff_of_true rfl (classified_header hversion hoperation (.inr h))⟩

theorem payloadFault_documented {op : Operation} (hop : op ≠ .getMessage)
    (hversion : frame.getD 0 0 = protocolVersion)
    (hoperation : Operation.ofCode (frame.getD 1 0) = some op) (hheader : HeaderSound frame)
    (h : Fault (layout op) (frame.drop headerSize) e) :
    ∃ code, decodeErrorResponse frame e = some ⟨some op, code, (str e.text).take 64⟩ ∧
      ((some op, code) = documentedError frame ↔ Classified frame) := by
  have hnamed := namedOperation_eq hversion hoperation
  rw [classified_iff hversion hoperation hheader.1 hheader.2, PayloadClassified, if_neg hop]
  by_cases hintact : intact (layout op) (frame.drop headerSize)
  · have hbroken : broken (layout op) (frame.drop headerSize) = false := by
      rw [broken, hintact]
      rfl
    rw [Fault, hbroken] at h
    rw [decodeErrorResponse_field hlength h, if_neg (not_not.mpr hheader.1), hnamed, if_pos hintact]
    refine ⟨_, rfl, ?_⟩
    by_cases hexceeds : exceedsLimit op (frame.drop headerSize)
    · rw [documentedError_exceeds hversion hoperation hheader.1 hheader.2 hintact hexceeds]
      exact iff_of_false (by simp) (not_not.mpr hexceeds)
    · rw [documentedError_field hversion hoperation hheader.1 hheader.2 hintact hexceeds]
      exact iff_of_true rfl hexceeds
  · rw [if_neg hintact, documentedError_broken hversion hoperation hintact]
    rw [Fault, broken, Bool.eq_false_iff.mpr hintact, Bool.not_false, Bool.true_and] at h
    split at h
    · next hvalid =>
      rw [decodeErrorResponse_length hlength h, hnamed]
      exact ⟨_, rfl, iff_of_true rfl hvalid⟩
    · next hvalid =>
      rw [decodeErrorResponse_field hlength h, if_neg (not_not.mpr hheader.1), hnamed]
      exact ⟨_, rfl, iff_of_false (by simp) hvalid⟩

/-- The response to a frame that is not decoded names the documented class exactly under the
condition. -/
theorem decodeErrorResponse_documented (he : decodeFrame frame = .error e) :
    ∃ op code, decodeErrorResponse frame e = some ⟨op, code, (str e.text).take 64⟩ ∧
      ((op, code) = documentedError frame ↔ Classified frame) := by
  by_cases hselect : isGetMessageFrame frame = true
  · rw [decodeFrame, if_pos hselect] at he
    have hfault := decodeGetMessageFrame_error hlength hselect he
    simp only [isGetMessageFrame, Bool.and_eq_true, decide_eq_true_eq] at hselect
    have hoperation : Operation.ofCode (frame.getD 1 0) = some .getMessage := by
      rw [hselect.2]
      rfl
    exact ⟨_, lookupFault_documented hlength hselect.1.2 hoperation hfault⟩
  · rw [decodeFrame, if_neg hselect] at he
    cases hheader : decodeHeader frame false with
    | error e' =>
      rw [hheader] at he
      obtain rfl := Except.error.inj he
      exact headerFault_documented hlength (decodeHeader_error hlength hheader)
    | ok decoded =>
      obtain ⟨op, flags, payload⟩ := decoded
      have hop : op ≠ .getMessage := by
        rintro rfl
        exact hselect (isGetMessageFrame_of_decodeHeader hheader)
      obtain ⟨hversion, hoperation, hsound, rfl⟩ := decodeHeader_sound hheader
      rw [hheader] at he
      exact ⟨_, payloadFault_documented hlength hop hversion hoperation hsound
        (decodePayload_fault hop _ e he)⟩

end Comparison

/-! ### What is sent -/

section Answer

variable {σ : Type} (dispatch : Str → ProtocolObject → Method PyError σ (List ProtocolObject))
  (callsign : Str) (frame : Bytes) (s : σ)

/-- One `ERROR` is answered, its detail is short, it names the documented operation and code, and
nothing is changed. -/
def AnsweredAsDocumented : Prop :=
  ∃ op code detail data text, (handleFrame dispatch callsign frame).run s = (.ok [data], s) ∧
    encodeFrame (.error ⟨op, code, detail⟩) false = .ok data ∧ encodeUtf8 detail = some text ∧
    text.length ≤ 64 ∧ (op, code) = documentedError frame

/-- What is sent can be read back, so it names what the response names. -/
theorem answeredAsDocumented_iff {e : PyError} {op : Option Operation} {code : ErrorCode}
    (he : decodeFrame frame = .error e)
    (hresponse : decodeErrorResponse frame e = some ⟨op, code, (str e.text).take 64⟩) :
    AnsweredAsDocumented dispatch callsign frame s ↔ (op, code) = documentedError frame := by
  have hrefusal := decodeFrame_raisesRefusal frame e he
  obtain ⟨text, htext, hnul, -, hmax⟩ : ValidText 0 64 ((str e.text).take 64) :=
    hrefusal.ascii.validText 64
  obtain ⟨data, hdata⟩ : Encodable (.error ⟨op, code, (str e.text).take 64⟩) :=
    encodable_error.mpr ⟨text, htext, hnul, Nat.zero_le _, hmax⟩
  have hrun : (handleFrame dispatch callsign frame).run s = (.ok [data], s) := by
    rw [handleFrame, he]
    dsimp only
    rw [if_pos hrefusal.caught, hresponse]
    dsimp only
    rw [hdata]
    rfl
  constructor
  · rintro ⟨op', code', detail, data', -, hrun', hdata', -, -, heq⟩
    obtain rfl : data = data' := by
      have hpair := congrArg Prod.fst (hrun.symm.trans hrun')
      exact List.head_eq_of_cons_eq (Except.ok.inj hpair)
    have hobj := (decodeFrame_of_encodeFrame hdata).symm.trans (decodeFrame_of_encodeFrame hdata')
    rw [Except.ok.injEq, ProtocolObject.error.injEq, Error.mk.injEq] at hobj
    rw [hobj.1, hobj.2.1]
    exact heq
  · intro heq
    exact ⟨op, code, _, data, text, hrun, hdata, htext, hmax, heq⟩

/-- A frame that is not decoded is answered with the documented error exactly where the frame is not
too long to be looked at and its payload shows its defect in order. -/
theorem handleFrame_documented_iff {e : PyError} (hlength : 4 ≤ frame.length)
    (he : decodeFrame frame = .error e) :
    AnsweredAsDocumented dispatch callsign frame s ↔ Classified frame := by
  obtain ⟨op, code, hresponse, hiff⟩ := decodeErrorResponse_documented hlength he
  rw [answeredAsDocumented_iff dispatch callsign frame s he hresponse, hiff]

end Answer

theorem handleFrame_documented_iff_version :
    AnsweredAsDocumented (fun _ _ => (pure [] : Method PyError Unit (List ProtocolObject))) [] [2,
      1, 0, 0] () ↔
      Classified [2, 1, 0, 0] :=
  handleFrame_documented_iff _ _ _ _ (by decide)
    (show decodeFrame [2, 1, 0, 0] =
      .error ⟨.unsupportedVersionError, "unsupported protocol version: 0x02"⟩ by decide +kernel)

/-- A `SEND_MESSAGE` for `EA1ABC` with a body of 209 bytes. -/
def longMessage : Bytes :=
  [1, 1, 0, 221, 0, 0, 0, 1, 6, 69, 65, 49, 65, 66, 67, 209] ++ List.replicate 209 65

/-- A body that is too long is not answered with `TOO_LARGE`. -/
theorem handleFrame_longMessage : ¬∀ (frame : Bytes) (e : PyError), 4 ≤ frame.length →
    decodeFrame frame = .error e →
    AnsweredAsDocumented (fun _ _ => (pure [] : Method PyError Unit (List ProtocolObject))) [] frame
      () := by
  intro h
  obtain ⟨e, hdef⟩ : ∃ e : PyError, e = .invalidField
    "body must contain between 1 and 208 UTF-8 bytes" :=
    ⟨_, rfl⟩
  have he : decodeFrame longMessage = .error e := by
    rw [hdef]
    decide +kernel
  have hresponse : decodeErrorResponse longMessage e =
      some ⟨some .sendMessage, .invalidField, (str e.text).take 64⟩ := by
    rw [hdef]
    decide +kernel
  have hdocumented : documentedError longMessage = (some .sendMessage, .tooLarge) := by
    decide +kernel
  have hanswered := h longMessage e (by decide +kernel) he
  rw [answeredAsDocumented_iff _ _ _ _ he hresponse, hdocumented] at hanswered
  exact absurd hanswered (by decide)

end OpenQSP
