import Mathlib.Data.List.DropRight
import OpenQSP.Aprs.Inbound
import OpenQSP.Protocol.Fields

/-!
# The APRS-IS line codec

One packet is one line: the sender, a header with a path, the addressee in a field of nine
characters, and the body. A line that is written from a packet reads back as the packet if and only
if the addressee fits its field.

## Main definitions

* `AprsIS.parsePacket`, `AprsIS.formatPacket`
* `OutboundPacket.Sendable` — what holds of the packets that the adapter makes

## Main results

* `validatePeer_chars` — what a valid address consists of
* `OutboundPacket.Sendable.parsePacket_iff` — when a line reads back as its packet
-/

namespace OpenQSP

/-! ### The codec -/

namespace AprsIS

/-- `QA[A-Z]`, matched completely. -/
def isEntryConstruct (part : Str) : Bool :=
  part.length = 3 && part.take 2 = str "QA" && (part.drop 2).all PyChar.isUpper

/-- The station that follows the first construct of a path, unless that is the internet. -/
def igateAfter : List Str → Option Str
  | part :: igate :: parts =>
    if isEntryConstruct part ∧ igate ≠ [] ∧ igate ≠ str "TCPIP" ∧ igate ≠ str "TCPIP*" then
      some (igate.rdropWhile fun c => c.code = 42)
    else igateAfter (igate :: parts)
  | _ => none

/-- `_igate_from_header` -/
def igateFromHeader (header : Str) : Option Str :=
  igateAfter ((header.splitOn (.scalar ',')).map fun part => (strip part).map PyChar.upper)

/-- `([^>]+)>([^:]+)::(.{9}):(.*)`, matched completely: no group can end later than at its first
delimiter, and the dot does not match a line feed. -/
def matchPacket (line : Str) : Option (Str × Str × Str × Str) :=
  let source := line.takeWhile fun c => c.code ≠ 62
  let header := (line.drop (source.length + 1)).takeWhile fun c => c.code ≠ 58
  let rest := line.drop (source.length + 1 + header.length)
  let addressee := (rest.drop 2).take 9
  let body := rest.drop 12
  if source ≠ [] ∧ (line.drop source.length).take 1 = str ">" ∧ header ≠ [] ∧
      rest.take 2 = str "::" ∧ addressee.length = 9 ∧ (rest.drop 11).take 1 = str ":" ∧
      (addressee ++ body).all (fun c => c.code ≠ 10) then
    some (source, header, addressee, body)
  else none

/-- `parse_packet`: the sender, the addressee, the body and the gateway of a line. The case mapping
is that of ASCII text. -/
def parsePacket (line : Str) : Option (Str × Str × Str × Option Str) :=
  match matchPacket (line.rdropWhile fun c => c.code = 13 || c.code = 10) with
  | none => none
  | some (source, header, addressee, body) =>
    some (source.map PyChar.upper, (strip addressee).map PyChar.upper, body,
      igateFromHeader header)

/-- The text, filled up with blanks to nine characters. -/
def fillNine (text : Str) : Str := text ++ List.replicate (9 - text.length) (.scalar ' ')

/-- `format_packet` -/
def formatPacket (packet : OutboundPacket) (destination : Str := str "APOQSP")
    (path : Str := str "TCPIP*") : Str :=
  packet.source ++ str ">" ++ destination ++ str "," ++ path ++ str "::" ++
    fillNine packet.destination ++ str ":" ++ packet.body

end AprsIS

/-! ### Addresses -/

/-- A character of an address. -/
def PyChar.isAddress (c : PyChar) : Bool := c.isBase36 || c.code = 45

theorem PyChar.isAddress_iff {c : PyChar} :
    c.isAddress ↔ 48 ≤ c.code ∧ c.code ≤ 57 ∨ 65 ≤ c.code ∧ c.code ≤ 90 ∨ c.code = 45 := by
  simp only [isAddress, isBase36, isDigit, isUpper, Bool.or_eq_true, Bool.and_eq_true,
    decide_eq_true_eq, or_assoc]

/-- No delimiter is a character of an address. -/
theorem ne_of_isAddress {c : PyChar} {code : ℕ} (h : c.isAddress)
    (hcode : ¬(48 ≤ code ∧ code ≤ 57 ∨ 65 ≤ code ∧ code ≤ 90 ∨ code = 45)) : c.code ≠ code := by
  rintro rfl
  exact hcode (PyChar.isAddress_iff.mp h)

/-- Addresses are in upper case. -/
theorem PyChar.upper_of_isAddress {c : PyChar} (h : c.isAddress) : c.upper = c := by
  rw [PyChar.isAddress_iff] at h
  exact PyChar.upper_eq_self (by omega)

theorem map_upper_of_isAddress {text : Str} (h : ∀ c ∈ text, c.isAddress) :
    text.map PyChar.upper = text := by
  rw [List.map_congr_left fun c hc => PyChar.upper_of_isAddress (h c hc), List.map_id']

/-- An address has three characters at least, all of them letters, digits or hyphens. -/
theorem validatePeer_chars {peer peer' : Str} (h : validatePeer peer = .ok peer') :
    3 ≤ peer.length ∧ ∀ c ∈ peer, c.isAddress := by
  obtain ⟨_, hform, -⟩ := Py.bind_eq_ok.mp h
  rw [raiseIf_eq_ok, not_not] at hform
  obtain ⟨hlen, -, hbase, hssid⟩ := hform
  set base := peer.takeWhile fun c => decide (c.code ≠ 45)
  have hprefix : base <+: peer := List.takeWhile_prefix _
  have hsplit : base ++ peer.drop base.length = peer := List.prefix_iff_eq_append.mp hprefix
  have hrest : peer.drop base.length = peer.dropWhile fun c => c.code ≠ 45 :=
    List.append_cancel_left (hsplit.trans List.takeWhile_append_dropWhile.symm)
  refine ⟨hlen.trans hprefix.length_le, fun c hc => ?_⟩
  rw [← hsplit, List.mem_append] at hc
  rw [PyChar.isAddress, Bool.or_eq_true]
  rcases hc with hc | hc
  · exact .inl (List.all_eq_true.mp hbase c hc)
  rcases hssid with hnil | ⟨-, -, hdigits⟩
  · rw [hnil] at hc
    exact absurd hc List.not_mem_nil
  have hhead := List.head?_dropWhile_not (fun c : PyChar => decide (c.code ≠ 45)) peer
  rw [← hrest] at hhead
  cases hcases : peer.drop base.length with
  | nil =>
    rw [hcases] at hc
    exact absurd hc List.not_mem_nil
  | cons hyphen digits =>
    rw [hcases] at hc hhead hdigits
    rcases List.mem_cons.mp hc with rfl | hc
    · exact .inr (by simpa using hhead)
    · refine .inl ?_
      rw [PyChar.isBase36, List.all_eq_true.mp hdigits c hc, Bool.true_or]

/-! ### Blanks and line ends -/

/-- Nothing is dropped from the end when nothing there is to be dropped. -/
theorem rdropWhile_append_of_neg {p : PyChar → Bool} {text last : Str} (hne : last ≠ [])
    (h : ∀ c ∈ last, p c = false) : (text ++ last).rdropWhile p = text ++ last := by
  obtain ⟨c, rest, hlast⟩ := List.exists_cons_of_ne_nil (List.reverse_ne_nil_iff.mpr hne)
  have hc : p c = false := h c (List.mem_reverse.mp (hlast ▸ List.mem_cons_self))
  rw [List.rdropWhile, List.reverse_append, hlast, List.cons_append,
    List.dropWhile_cons_of_neg (Bool.eq_false_iff.mp hc), ← List.cons_append, ← hlast,
    ← List.reverse_append, List.reverse_reverse]

/-- `strip` leaves a text without blanks as it is, and drops the blanks after it. -/
theorem strip_append_blanks {text : Str} (h : ∀ c ∈ text, c.isAddress) (hne : text ≠ []) (n : ℕ) :
    strip (text ++ List.replicate n (.scalar ' ')) = text := by
  have hkeep : ∀ {c : PyChar} {l : Str}, c.isAddress → (c :: l).dropWhile (fun c =>
      c.code = 32 || (9 ≤ c.code && c.code ≤ 13) || (28 ≤ c.code && c.code ≤ 31)) = c :: l := by
    intro c l hc
    rw [PyChar.isAddress_iff] at hc
    refine List.dropWhile_cons_of_neg ?_
    simp only [Bool.or_eq_true, Bool.and_eq_true, decide_eq_true_eq]
    omega
  have hdrop : ∀ {l : Str}, (List.replicate n (PyChar.scalar ' ') ++ l).dropWhile (fun c =>
      c.code = 32 || (9 ≤ c.code && c.code ≤ 13) || (28 ≤ c.code && c.code ≤ 31)) =
      l.dropWhile (fun c =>
      c.code = 32 || (9 ≤ c.code && c.code ≤ 13) || (28 ≤ c.code && c.code ≤ 31)) := by
    intro l
    refine List.dropWhile_append_of_pos fun c hc => ?_
    rw [(List.mem_replicate.mp hc).2]
    rfl
  obtain ⟨first, rest, rfl⟩ := List.exists_cons_of_ne_nil hne
  rw [strip, List.cons_append, hkeep (h first List.mem_cons_self), ← List.cons_append,
    List.reverse_append, List.reverse_replicate, hdrop]
  obtain ⟨last, others, hlast⟩ := List.exists_cons_of_ne_nil
    (List.reverse_ne_nil_iff.mpr hne)
  have hmem : last ∈ first :: rest := List.mem_reverse.mp (hlast ▸ List.mem_cons_self)
  rw [hlast, hkeep (h last hmem), ← hlast, List.reverse_reverse]

/-! ### Lines -/

namespace AprsIS

/-- The groups of a line: the sender and the header end at their delimiters. -/
theorem matchPacket_line {source header rest : Str} (hsource : source ≠ [])
    (hsource' : ∀ c ∈ source, c.code ≠ 62) (hheader : header ≠ [])
    (hheader' : ∀ c ∈ header, c.code ≠ 58) :
    matchPacket (source ++ str ">" ++ header ++ str "::" ++ rest) =
      if (rest.take 9).length = 9 ∧ (rest.drop 9).take 1 = str ":" ∧
          (rest.take 9 ++ rest.drop 10).all (fun c => c.code ≠ 10) then
        some (source, header, rest.take 9, rest.drop 10)
      else none := by
  have htake : (source ++ str ">" ++ header ++ str "::" ++ rest).takeWhile (fun c => c.code ≠ 62) =
      source := by
    simp only [List.append_assoc]
    rw [List.takeWhile_append_of_pos fun c hc => decide_eq_true (hsource' c hc)]
    exact List.append_nil source
  have hdrop : (source ++ str ">" ++ header ++ str "::" ++ rest).drop (source.length + 1) =
      header ++ str "::" ++ rest := by
    simp only [List.append_assoc]
    rw [← List.drop_drop, List.drop_left]
    rfl
  have hheaderTake : (header ++ str "::" ++ rest).takeWhile (fun c => c.code ≠ 58) = header := by
    rw [List.append_assoc, List.takeWhile_append_of_pos fun c hc => decide_eq_true (hheader' c hc)]
    exact List.append_nil header
  have hrest : (source ++ str ">" ++ header ++ str "::" ++ rest).drop
      (source.length + 1 + header.length) = str "::" ++ rest := by
    rw [← List.drop_drop, hdrop, List.append_assoc, List.drop_left]
  rw [matchPacket, htake, hdrop, hheaderTake, hrest]
  have hgt : (source ++ str ">" ++ header ++ str "::" ++ rest).drop source.length =
      str ">" ++ (header ++ str "::" ++ rest) := by
    simp only [List.append_assoc, List.drop_left]
  rw [hgt]
  have htail : ∀ n, (str "::" ++ rest).drop (n + 2) = rest.drop n := fun _ => rfl
  rw [htail 0, htail 9, htail 10, List.drop_zero]
  refine if_congr ⟨fun h => h.2.2.2.2, fun h => ⟨hsource, rfl, hheader, rfl, h⟩⟩ rfl rfl

/-- The header that the service writes names no gateway. -/
theorem igateFromHeader_default : igateFromHeader (str "APOQSP,TCPIP*") = none := by decide

/-- What a line holds is filled up with blanks, or it is too long. -/
theorem fillNine_cases {text : Str} (h : ∀ c ∈ text, c.isAddress) (body : Str) :
    (text.length ≤ 9 ∧ (fillNine text ++ str ":" ++ body).take 9 = fillNine text ∧
      (fillNine text).length = 9 ∧
      (fillNine text ++ str ":" ++ body).drop 9 = str ":" ++ body) ∨
    (9 < text.length ∧ ((fillNine text ++ str ":" ++ body).drop 9).take 1 ≠ str ":") := by
  rcases Nat.lt_or_ge 9 text.length with hlong | hshort
  · refine .inr ⟨hlong, fun htake => ?_⟩
    have hfill : fillNine text = text := by
      rw [fillNine, Nat.sub_eq_zero_of_le hlong.le, List.replicate_zero, List.append_nil]
    rw [hfill, List.append_assoc, List.drop_append_of_le_length hlong.le,
      List.drop_eq_getElem_cons hlong] at htake
    have hchar : text[9] = .scalar ':' := List.head_eq_of_cons_eq htake
    have haddress := h text[9] (List.getElem_mem hlong)
    rw [hchar] at haddress
    exact absurd haddress (by decide)
  · have hlen : (fillNine text).length = 9 := by
      rw [fillNine, List.length_append, List.length_replicate]
      omega
    refine .inl ⟨hshort, ?_, hlen, ?_⟩
    · rw [List.append_assoc, ← hlen, List.take_left]
    · rw [List.append_assoc, ← hlen, List.drop_left]

end AprsIS

/-- A character that a packet body may have. -/
def PyChar.isPrintable (c : PyChar) : Bool := 33 ≤ c.code && c.code ≤ 126

theorem PyChar.isPrintable_iff {c : PyChar} : c.isPrintable ↔ 33 ≤ c.code ∧ c.code ≤ 126 := by
  rw [isPrintable, Bool.and_eq_true, decide_eq_true_eq, decide_eq_true_eq]

/-- What holds of the packets that the adapter makes: they are from the service to a valid address,
and their bodies are printable. -/
structure OutboundPacket.Sendable (setup : Setup) (packet : OutboundPacket) : Prop where
  source_eq : packet.source = setup.serviceCallsign
  destination_valid : validatePeer packet.destination = .ok packet.destination
  printable : ∀ c ∈ packet.body, c.isPrintable

open AprsIS in
/-- A line reads back as its packet if and only if the addressee fits its field. -/
theorem OutboundPacket.Sendable.parsePacket_iff {setup : Setup} {packet : OutboundPacket}
    (hservice : validatePeer setup.serviceCallsign = .ok setup.serviceCallsign)
    (h : packet.Sendable setup) :
    AprsIS.parsePacket (formatPacket packet) =
        some (packet.source, packet.destination, packet.body, none) ↔
      packet.destination.length ≤ 9 := by
  obtain ⟨hlen, hsource⟩ := validatePeer_chars hservice
  rw [← h.source_eq] at hlen hsource
  obtain ⟨hlen', hdestination⟩ := validatePeer_chars h.destination_valid
  have hne : ∀ {text : Str}, 3 ≤ text.length → text ≠ [] := fun hlen hnil => by
    rw [hnil] at hlen
    exact absurd hlen (by decide)
  have hline : formatPacket packet = packet.source ++ str ">" ++ str "APOQSP,TCPIP*" ++ str "::" ++
      (fillNine packet.destination ++ str ":" ++ packet.body) := by
    simp only [formatPacket, List.append_assoc]
    rfl
  have hend : ∀ c ∈ str ":" ++ packet.body, (c.code = 13 || c.code = 10) = false := by
    intro c hc
    rcases List.mem_append.mp hc with hc | hc
    · rw [List.mem_singleton.mp hc]
      rfl
    · have hprintable := PyChar.isPrintable_iff.mp (h.printable c hc)
      simp only [Bool.or_eq_false_iff, decide_eq_false_iff_not]
      omega
  have hstrip : (formatPacket packet).rdropWhile (fun c => c.code = 13 || c.code = 10) =
      formatPacket packet := by
    rw [formatPacket, List.append_assoc _ (str ":")]
    exact rdropWhile_append_of_neg (List.cons_ne_nil _ _) hend
  rw [AprsIS.parsePacket, hstrip, hline, matchPacket_line (hne hlen)
    (fun c hc => ne_of_isAddress (hsource c hc) (by decide)) (by decide) (by decide)]
  rcases fillNine_cases hdestination packet.body with
    ⟨hshort, htake, hfill, hdrop⟩ | ⟨hlong, hcolon⟩
  · have hdrop' : (fillNine packet.destination ++ str ":" ++ packet.body).drop 10 =
        packet.body := by
      rw [← List.drop_drop (i := 1) (j := 9), hdrop]
      rfl
    have hbody : ∀ c ∈ fillNine packet.destination ++ packet.body, decide (c.code ≠ 10) = true := by
      intro c hc
      rw [decide_eq_true_eq]
      rcases List.mem_append.mp hc with hc | hc
      · rcases List.mem_append.mp hc with hc | hc
        · exact ne_of_isAddress (hdestination c hc) (by decide)
        · rw [(List.mem_replicate.mp hc).2]
          decide
      · have hprintable := PyChar.isPrintable_iff.mp (h.printable c hc)
        omega
    rw [htake, hdrop, hdrop', if_pos ⟨hfill, rfl, List.all_eq_true.mpr hbody⟩]
    dsimp only
    have hstripped : strip (fillNine packet.destination) = packet.destination :=
      strip_append_blanks hdestination (hne hlen') _
    rw [hstripped, map_upper_of_isAddress hsource, map_upper_of_isAddress hdestination]
    exact ⟨fun _ => hshort, fun _ => by rw [igateFromHeader_default]⟩
  · rw [if_neg fun h => hcolon h.2.1]
    exact ⟨nofun, fun hshort => absurd hshort (Nat.not_le.mpr hlong)⟩

end OpenQSP
