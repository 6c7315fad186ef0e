import OpenQSP.Aprs.History

/-!
# What parsing and reassembly may raise

Everything that can be wrong with a packet is a `CarriageError` or one of its subclasses, which
`receive` catches: an address, a fragment, and an assembly that does not make a frame. For the
assembly this rests on what the table holds, because a table with foreign indexes or with the parts
of another profile would raise other exceptions.

## Main definitions

* `Assembly.Sound`, `Reassembler.Sound` — the parts have indexes below the total, and the kind that
  their profile has

## Main results

* `validatePeer_raises`, `parseFragment_raises`
* `Reassembler.add_sound` — a call keeps the invariant, raises nothing else, and returns frames
* `runState_assembling` — the invariant holds in every run
-/

namespace OpenQSP

open APRSAdapter

/-! ### Parsing -/

theorem validatePeer_raises (peer : Str) : Raises (·.isA .carriageError) (validatePeer peer) :=
  .bind (.check rfl) fun _ => .bind (.check rfl) fun _ => .ok _

theorem parseBase36_raises (text : Str) (width : ℕ) :
    Raises (·.isA .carriageError) (parseBase36 text width) := .bind (.check rfl) fun _ => .ok _

theorem base36_raises (value width : ℕ) : Raises (·.isA .carriageError) (base36 value width) :=
  .bind (.check rfl) fun _ => .ok _

theorem base91DecodeLoop_raises (text : Str) : ∀ value accumulator bits,
    Raises (·.isA .carriageError) (base91DecodeLoop text value accumulator bits) := by
  induction text with
  | nil =>
    intro value accumulator bits
    cases value <;> exact .ok _
  | cons c text ih =>
    intro value accumulator bits
    rw [base91DecodeLoop]
    split
    · exact .error rfl
    · split
      · exact ih _ _ _
      · exact .bind (ih _ _ _) fun _ => .ok _

theorem base91Decode_raises (text : Str) : Raises (·.isA .carriageError) (base91Decode text) :=
  .bind (.check rfl) fun _ => base91DecodeLoop_raises text _ _ _

theorem parseQ2_raises (body : Str) : Raises (·.isA .carriageError) (parseQ2 body) := by
  refine .bind (.check rfl) fun _ => .bind (base91Decode_raises _) fun _ =>
    .bind (.check rfl) fun _ => ?_
  refine .bind (.check rfl) fun _ => .bind (.check rfl) fun _ => ?_
  exact .bind (base36_raises _ _) fun _ => .ok _

theorem parseFragment_raises (body : Str) : Raises (·.isA .carriageError) (parseFragment body) := by
  refine .ite (parseQ2_raises body) (.bind (.check rfl) fun _ => ?_)
  split
  · exact .error rfl
  · refine .bind (parseBase36_raises _ _) fun _ => .bind (parseBase36_raises _ _) fun _ => ?_
    exact .bind (.check rfl) fun _ => .ok _

theorem parsePacket_raises (peer body : Str) :
    Raises (·.isA .carriageError) (parsePacket peer body) :=
  .bind (validatePeer_raises peer) fun _ => .bind (parseFragment_raises body) fun _ => .ok _

/-! ### Assemblies -/

/-- The part is of the kind that its profile has. -/
def Part.OfVersion (version : ℕ) : Part → Prop
  | raw _ => version = 2
  | text _ => version ≠ 2

structure Assembly.Sound (entry : Assembly) : Prop where
  parts : ∀ e ∈ entry.parts.entries, e.1 < entry.total ∧ e.2.OfVersion entry.version

/-- The invariant of the table. -/
def Reassembler.Sound (entries : Reassembler) : Prop := ∀ e ∈ entries.entries, e.2.Sound

variable {setup : Setup} {bounds : ReassemblyBounds} {fragment : APRSFragment} {entry : Assembly}
  {entries : Reassembler} {now : ℚ} {peer body : Str}

theorem part_of_parsed (h : parseFragment body = .ok fragment) :
    ∃ part, fragment.part = .ok part ∧ part.OfVersion fragment.version := by
  rcases parseFragment_cases h with ⟨-, h⟩ | ⟨-, hversion, -⟩
  · obtain ⟨hversion, hraw, -⟩ := parseQ2_eq_ok h
    obtain ⟨raw, hraw⟩ := Option.isSome_iff_exists.mp hraw
    refine ⟨.raw raw, ?_, hversion⟩
    rw [APRSFragment.part, if_pos hversion, hraw]
  · have hne : fragment.version ≠ 2 := by omega
    exact ⟨.text fragment.data, by rw [APRSFragment.part, if_neg hne], hne⟩

namespace Assembly

/-- All indexes are there when there are as many parts as indexes. -/
theorem Sound.partAt (h : entry.Sound) (hsize : entry.parts.size = entry.total) {index : ℕ}
    (hindex : index < entry.total) :
    ∃ part, entry.partAt index = .ok part ∧ part.OfVersion entry.version := by
  have hkeys : entry.parts.keys.toFinset = Finset.range entry.total := by
    refine Finset.eq_of_subset_of_card_le (fun i hi => ?_) ?_
    · obtain ⟨e, he, rfl⟩ := List.mem_map.mp (List.mem_toFinset.mp hi)
      exact Finset.mem_range.mpr (h.parts e he).1
    · have hcard := List.toFinset_card_of_nodup (l := entry.parts.keys) entry.parts.nodup_keys
      rw [hcard, Finset.card_range, OrderedDict.keys, List.length_map]
      exact hsize.ge
  have hmem : index ∈ entry.parts.keys := by
    rw [← List.mem_toFinset, hkeys]
    exact Finset.mem_range.mpr hindex
  obtain ⟨part, hpart⟩ := OrderedDict.mem_keys_iff.mp hmem
  exact ⟨part, by rw [Assembly.partAt, hpart],
    (h.parts _ (OrderedDict.get?_eq_some_iff.mp hpart)).2⟩

theorem decodeFrameText_raises (text : Str) :
    Raises (·.isA .carriageError) (decodeFrameText text) := by
  refine .bind (.check rfl) fun _ => .bind (.check rfl) fun _ => ?_
  dsimp only
  split
  · exact .ok _
  · exact .error rfl

/-- A complete assembly raises nothing else, and what it makes is a frame. -/
theorem Sound.frame_raises (h : entry.Sound) (hsize : entry.parts.size = entry.total) :
    Raises (·.isA .carriageError) entry.frame := by
  rw [frame]
  split
  · next hversion =>
    refine .bind (.mapM fun index hindex => ?_) fun pieces => ?_
    · obtain ⟨part, hpart, hkind⟩ := h.partAt hsize (List.mem_range.mp hindex)
      rw [hpart, Py.ok_bind]
      cases part with
      | raw data => exact .ok _
      | text data => exact absurd hversion hkind
    · dsimp only
      split
      · exact .ok _
      · exact .error rfl
  · refine .bind (.mapM fun index hindex => ?_) fun pieces => decodeFrameText_raises _
    obtain ⟨part, hpart, -⟩ := h.partAt hsize (List.mem_range.mp hindex)
    rw [hpart]
    exact .ok _

theorem decodeFrameText_eq_ok {text : Str} {frame : Bytes} (h : decodeFrameText text = .ok frame) :
    ∃ decoded, decodeFrameWithFlags frame = .ok decoded := by
  obtain ⟨_, -, h⟩ := Py.bind_eq_ok.mp h
  obtain ⟨_, -, h⟩ := Py.bind_eq_ok.mp h
  dsimp only at h
  split at h
  · next decoded hdecoded =>
    rw [← Except.ok.inj h]
    exact ⟨decoded, hdecoded⟩
  · cases h

theorem frame_eq_ok {frame : Bytes} (h : entry.frame = .ok frame) :
    ∃ decoded, decodeFrameWithFlags frame = .ok decoded := by
  rw [Assembly.frame] at h
  split at h
  · obtain ⟨pieces, -, h⟩ := Py.bind_eq_ok.mp h
    dsimp only at h
    split at h
    · next decoded hdecoded =>
      rw [← Except.ok.inj h]
      exact ⟨decoded, hdecoded⟩
    · cases h
  · obtain ⟨pieces, -, h⟩ := Py.bind_eq_ok.mp h
    exact decodeFrameText_eq_ok h

theorem Sound.set (h : entry.Sound) {index : ℕ} {part : Part} (hindex : index < entry.total)
    (hkind : part.OfVersion entry.version) (now : ℚ) :
    Assembly.Sound { entry with parts := entry.parts.set index part, lastSeen := now } := by
  constructor
  intro e he
  rcases OrderedDict.mem_entries_set.mp he with rfl | ⟨he, -⟩
  · exact ⟨hindex, hkind⟩
  · exact h.parts e he

end Assembly

namespace Reassembler

theorem Sound.of_subset (h : entries.Sound) {entries' : Reassembler}
    (hsub : ∀ e ∈ entries'.entries, e ∈ entries.entries) : entries'.Sound :=
      fun e he => h e (hsub e he)

theorem Sound.expire (h : entries.Sound) (bounds : ReassemblyBounds) (now : ℚ) :
    (entries.expire bounds now).Sound :=
  h.of_subset fun _ he => (OrderedDict.mem_entries_filter.mp he).1

theorem Sound.erase (h : entries.Sound) (key : TransactionKey) : Sound (entries.erase key) :=
  h.of_subset fun _ he => (OrderedDict.mem_entries_erase.mp he).1

/-- What a call of the reassembler raises and returns. -/
def Collects (result : Py (Option Bytes) × Reassembler) : Prop :=
  result.2.Sound ∧ Raises (·.isA .carriageError) result.1 ∧
    ∀ frame, result.1 = .ok (some frame) → ∃ decoded, decodeFrameWithFlags frame = .ok decoded

theorem collect_sound (h : entries.Sound) (hentry : entry.Sound)
    (hparse : parseFragment body = .ok fragment)
    (htotal : entry.total = fragment.total) (hversion : entry.version = fragment.version)
    (key : TransactionKey) : Collects (collect key entry fragment now entries) := by
  obtain ⟨part, hpart, hkind⟩ := part_of_parsed hparse
  have hset := hentry.set (htotal ▸ (parseFragment_bounds hparse).1) (hversion ▸ hkind) now
  rw [collect, hpart]
  dsimp only
  split
  · refine ⟨h.erase key, .error rfl, ?_⟩
    intro _ hframe
    cases hframe
  · split
    · refine ⟨fun e he => ?_, .ok _, fun _ hframe => ?_⟩
      swap
      · cases hframe
      rcases OrderedDict.mem_entries_set.mp (OrderedDict.mem_entries_moveToEnd.mp he) with
        rfl | ⟨he, -⟩
      · exact hset
      · exact h e he
    · next hsize =>
      rw [not_not] at hsize
      have hraises := hset.frame_raises hsize
      refine ⟨h.erase key, fun e he => ?_, fun frame hframe => ?_⟩
      · rcases hresult : Assembly.frame _ with e' | frame
        · rw [hresult] at he
          obtain rfl := Except.error.inj he
          exact hraises _ hresult
        · rw [hresult] at he
          cases he
      · rcases hresult : Assembly.frame _ with e' | frame'
        · rw [hresult] at hframe
          cases hframe
        · rw [hresult] at hframe
          obtain rfl := Option.some.inj (Except.ok.inj hframe)
          exact Assembly.frame_eq_ok hresult

/-- Every call keeps the invariant, raises nothing but a `CarriageError`, and returns frames. -/
theorem add_sound (h : entries.Sound) (hparse : parseFragment body = .ok fragment)
    (bounds : ReassemblyBounds)
    (peer : Str) (now : ℚ) : Collects (entries.add bounds peer fragment now) := by
  have hexpire := h.expire bounds now
  rw [add]
  split
  · refine collect_sound (hexpire.of_subset fun _ => OrderedDict.mem_entries_of_dropFirst)
      ⟨?_⟩ hparse
      rfl rfl _
    exact fun e he => absurd he List.not_mem_nil
  · next entry hget =>
    split
    · exact ⟨hexpire.erase _, .error rfl, nofun⟩
    · next hsame =>
      rw [not_or, not_not, not_not] at hsame
      exact collect_sound hexpire (hexpire _ (OrderedDict.get?_eq_some_iff.mp hget)) hparse hsame.1
        hsame.2 _

end Reassembler

/-! ### Runs -/

theorem Received.assembling {i i' : Inbound} {outcome : Py Disposition} (h : i.reassembly.Sound)
    (hreceived : Received setup peer body now i outcome i') : i'.reassembly.Sound := by
  have hadd : ∀ {fragment result}, parsePacket peer body = .ok (peer, fragment) →
      i.reassembly.add setup.config.reassembly peer fragment now = result → result.2.Sound := by
    rintro fragment _ parsed rfl
    exact (Reassembler.add_sound h (parsePacket_eq_ok parsed).2.2 _ _ _).1
  cases hreceived with
  | noFragment => exact h
  | replayed => exact h
  | collected parsed _ added => exact hadd parsed added
  | rejected parsed _ added => exact hadd parsed added
  | crashed parsed _ added => exact hadd parsed added
  | complete parsed _ added effect again =>
    have hsound := hadd parsed added
    rcases again with rfl | rfl
    · exact effect.tables_eq.1.symm ▸ hsound
    · exact effect.tables_eq.1.symm ▸ hsound
  | raised parsed _ added effect again =>
    have hsound := hadd parsed added
    rcases again with rfl | rfl
    · exact effect.tables_eq.1.symm ▸ hsound
    · exact effect.tables_eq.1.symm ▸ hsound

theorem step_assembling {s : APRSAdapter} (h : s.reassembly.Sound) (call : Call) :
    (step setup s call).reassembly.Sound := by
  by_cases hcall : call.isInbound = false
  · rw [show (step setup s call).reassembly = s.reassembly from
      congrArg Inbound.reassembly (step_inbound hcall s)]
    exact h
  cases call with
  | receive peer body now =>
    rw [step_receive]
    exact (receive_received s).assembling h
  | poll now =>
    rw [step_poll]
    obtain ⟨-, hcaches⟩ : Method.Yields _ _ _ := pollEmissions_inbound s
    rcases hcaches with ⟨hreassembly, -⟩ | ⟨hreassembly, -⟩
    · rw [hreassembly]
      exact h
    · rw [hreassembly]
      exact h.expire _ _
  | _ => exact absurd rfl hcall

variable (setup) in
theorem runState_assembling (core : CoreState) (calls : List Call) :
    ∀ i ≤ calls.length, (runState setup core calls i).reassembly.Sound :=
  stateAt_invariant (I := fun s : APRSAdapter => s.reassembly.Sound)
    (fun _ h => absurd h List.not_mem_nil) fun _ _ h => step_assembling h _

end OpenQSP
