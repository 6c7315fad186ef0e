import OpenQSP.Storage.Logs

/-!
# When the engine refuses nothing

The statements of a call can fail on their own: a text that cannot be bound, an integer that does
not fit, a constraint. On consistent tables and with arguments in their ranges none of them does, as
long as the engine itself refuses nothing and has an integer left for the next message. Then the
only thing that can be wrong with a message is that its mailbox is full.

## Main definitions

* `Tables.HasCapacity` — the engine has an integer for one more message
* `Tables.CountsFor` — the counters that the next message of a recipient takes are ahead of the rows

## Main results

* `storeMessage_run` — what `store_message` returns
* `storeBulletin_run` — what `store_bulletin` returns
-/

namespace OpenQSP

open Session

namespace Tables

/-- The engine has an integer for one more message. A database file is full long before. -/
def HasCapacity (t : Tables) : Prop := t.messages.entries.length < maxSqliteInteger

theorem Consistent.apiMessageSequence_eq {t : Tables} (h : t.Consistent) :
    t.apiMessageSequence = t.messages.entries.length := by
  have hlen := congrArg List.length h.api
  rw [List.length_map, List.length_range'] at hlen
  exact hlen.symm

section Statements

variable {t : Tables} {recipient author : Str}

theorem updateApiSequence_ok {value : ℕ} (hmax : value ≤ maxSqliteInteger) :
    updateApiSequence (value : ℤ) t = .ok ((), { t with apiMessageSequence := value }) := by
  rw [updateApiSequence, bindInteger_of_natCast (Int.ofNat_le.mpr hmax), Py.ok_bind,
    raiseIf_of_not (by omega), Py.ok_bind, Int.toNat_natCast]
  rfl

theorem upsertMailbox_ok (hrecipient : (encodeUtf8 recipient).isSome) {value : ℕ}
    (hmax : value ≤ maxU32) : upsertMailbox recipient (value : ℤ) t =
      .ok ((), { t with mailboxSequences := t.mailboxSequences.set recipient value }) := by
  rw [upsertMailbox, bindText_of_isSome hrecipient, Py.ok_bind, bindInteger_of_le hmax, Py.ok_bind,
    raiseIf_of_not (not_not.mpr ⟨Int.natCast_nonneg _, Int.ofNat_le.mpr hmax⟩), Py.ok_bind,
    Int.toNat_natCast]
  rfl

theorem insertMessage_ok (hrecipient : (encodeUtf8 recipient).isSome)
    (hauthor : (encodeUtf8 author).isSome) {sequence api createdAt acceptedAt : ℕ} {body : Bytes}
    (hsequence : 1 ≤ sequence ∧ sequence ≤ maxU32) (hapi : 1 ≤ api ∧ api ≤ maxSqliteInteger)
    (hcreated : createdAt ≤ maxU32) (haccepted : acceptedAt ≤ maxSqliteInteger)
    (hunique : ∀ e ∈ t.messages.entries, e.2.apiSequence ≠ api)
    (hkey : (recipient, sequence) ∉ t.messages.keys) :
    insertMessage recipient (sequence : ℤ) (api : ℤ) (createdAt : ℤ) (acceptedAt : ℤ) author
      body t =
      .ok ((), { t with
        messages := t.messages.set (recipient, sequence) ⟨api, createdAt, acceptedAt, author,
          body⟩ }) := by
  have hchecks : 1 ≤ (sequence : ℤ) ∧ (sequence : ℤ) ≤ maxU32 ∧ 0 < (api : ℤ) ∧
    0 ≤ (createdAt : ℤ) ∧
      (createdAt : ℤ) ≤ maxU32 ∧ 0 ≤ (acceptedAt : ℤ) := by omega
  have hunique' : ¬∃ e ∈ t.messages.entries, (e.2.apiSequence : ℤ) = (api : ℤ) := by
    rintro ⟨e, he, heq⟩
    exact hunique e he (Int.natCast_inj.mp heq)
  rw [insertMessage, bindText_of_isSome hrecipient, Py.ok_bind, bindInteger_of_le hsequence.2,
    Py.ok_bind, bindInteger_of_natCast (Int.ofNat_le.mpr hapi.2), Py.ok_bind,
    bindInteger_of_le hcreated, Py.ok_bind, bindInteger_of_natCast (Int.ofNat_le.mpr haccepted),
    Py.ok_bind, bindText_of_isSome hauthor, Py.ok_bind, raiseIf_of_not (not_not.mpr hchecks),
      Py.ok_bind,
    raiseIf_of_not hunique', Py.ok_bind, raiseIf_of_not (by rwa [Int.toNat_natCast]), Py.ok_bind]
  simp only [Int.toNat_natCast]
  rfl

theorem insertBulletin_ok (hauthor : (encodeUtf8 author).isSome) {title : Str}
    (htitle : (encodeUtf8 title).isSome) {sequence createdAt acceptedAt : ℕ} {body : Bytes}
    (hsequence : 1 ≤ sequence ∧ sequence ≤ maxU32) (hcreated : createdAt ≤ maxU32)
    (haccepted : acceptedAt ≤ maxSqliteInteger) (hkey : sequence ∉ t.bulletins.keys) :
    insertBulletin (sequence : ℤ) (createdAt : ℤ) (acceptedAt : ℤ) author title body t =
      .ok ((), { t with
        bulletins := t.bulletins.set sequence ⟨createdAt, acceptedAt, author, title, body⟩ }) := by
  have hchecks : 1 ≤ (sequence : ℤ) ∧ (sequence : ℤ) ≤ maxU32 ∧ 0 ≤ (createdAt : ℤ) ∧
      (createdAt : ℤ) ≤ maxU32 ∧ 0 ≤ (acceptedAt : ℤ) := by omega
  rw [insertBulletin, bindInteger_of_le hsequence.2, Py.ok_bind, bindInteger_of_le hcreated,
    Py.ok_bind, bindInteger_of_natCast (Int.ofNat_le.mpr haccepted), Py.ok_bind,
    bindText_of_isSome hauthor, Py.ok_bind, bindText_of_isSome htitle, Py.ok_bind,
    raiseIf_of_not (not_not.mpr hchecks), Py.ok_bind,
    raiseIf_of_not (by rwa [Int.toNat_natCast]), Py.ok_bind]
  simp only [Int.toNat_natCast]
  rfl

theorem updateBulletinSequence_ok {value : ℕ} (hmax : value ≤ maxU32) :
    updateBulletinSequence (value : ℤ) t = .ok ((), { t with bulletinSequence := value }) := by
  rw [updateBulletinSequence, bindInteger_of_le hmax, Py.ok_bind,
    raiseIf_of_not (not_not.mpr ⟨Int.natCast_nonneg _, Int.ofNat_le.mpr hmax⟩), Py.ok_bind,
    Int.toNat_natCast]
  rfl

end Statements

end Tables

open Tables

/-- The counters that the next message of a recipient takes are ahead of the rows. -/
structure Tables.CountsFor (t : Tables) (recipient : Str) : Prop where
  highest_le : t.highest recipient ≤ maxU32
  api_lt : t.apiMessageSequence < maxSqliteInteger
  sequences_le : ∀ e ∈ t.messages.entries, e.1.1 = recipient → e.1.2 ≤ t.highest recipient
  apis_le : ∀ e ∈ t.messages.entries, e.2.apiSequence ≤ t.apiMessageSequence

theorem Tables.Consistent.countsFor {t : Tables} (h : t.Consistent) (hcapacity : t.HasCapacity)
    (recipient : Str) : t.CountsFor recipient where
  highest_le := h.highest_le recipient
  api_lt := by
    rw [h.apiMessageSequence_eq]
    exact hcapacity
  sequences_le e he hrecipient :=
    ((h.contiguous_filter recipient).le (List.mem_filter.mpr ⟨he, decide_eq_true hrecipient⟩)).2
  apis_le e he := (h.contiguous_api.le he).2

/-- Without failures a message is stored, unless its mailbox is full. -/
theorem storeMessage_run_of_countsFor {t : Tables} {recipient : Str} (h : t.CountsFor recipient)
    {createdAt clock : ℤ} {author body : Str} (hcreated : 0 ≤ createdAt ∧ createdAt ≤ maxU32)
    (hbody : (encodeUtf8 body).isSome) (hauthor : (encodeUtf8 author).isSome)
    (hrecipient : (encodeUtf8 recipient).isSome) (hclock : 0 ≤ clock ∧ clock ≤ maxSqliteInteger) :
    ((storeMessage createdAt author recipient body clock []).run t).1 =
      if t.highest recipient = maxU32 then
        .error ⟨.sequenceExhaustedError, "mailbox sequence is exhausted"⟩
      else .ok (t.nextSequence recipient) := by
  obtain ⟨data, hdata⟩ := Option.isSome_iff_exists.mp hbody
  obtain ⟨created, rfl⟩ := Int.eq_ofNat_of_zero_le hcreated.1
  obtain ⟨accepted, rfl⟩ := Int.eq_ofNat_of_zero_le hclock.1
  have hhighest := h.highest_le
  rw [storeMessage, requireU32, raiseIf_of_not (not_not.mpr hcreated), Method.run_ofExcept_ok_bind,
    encodeBody_eq_ok.mpr hdata, Method.run_ofExcept_ok_bind, run_closing_atomically_nil,
    storeMessageTransaction]
  have hrow : select (mailboxSequence recipient) t =
    .ok (t.mailboxSequences.get? recipient, t) := by
    rw [select, mailboxSequence, bindText_of_isSome hrecipient]
    rfl
  dsimp only
  rw [Method.run_bind_of_ok (run_execute_of_ok hrow)]
  refine (congrArg Prod.fst (Method.run_bind_of_ok
    (?_ : _ = ((Except.ok (t.highest recipient), ⟨t, some t, []⟩) : Except PyError ℕ × _))
      _)).trans ?_
  · rw [highest] at hhighest ⊢
    rcases hget : t.mailboxSequences.get? recipient with _ | value
    · rfl
    · rw [hget] at hhighest
      rw [Option.getD_some] at hhighest
      dsimp only
      rw [validateStoredU32_of_le true (Nat.zero_le _) hhighest]
      rfl
  split
  · next hfull =>
    rw [raiseIf, if_pos hfull]
    rfl
  next hfull =>
  have hnext : t.nextSequence recipient = t.highest recipient + 1 := rfl
  have hle : t.nextSequence recipient ≤ maxU32 := by omega
  have hapi : t.apiMessageSequence + 1 ≤ maxSqliteInteger := h.api_lt
  have hselect : select (fun t => pure t.apiMessageSequence) t = .ok (t.apiMessageSequence, t) :=
    rfl
  have hunique : ∀ e ∈ t.messages.entries, e.2.apiSequence ≠ t.apiMessageSequence + 1 := by
    intro e he heq
    have hle := h.apis_le e he
    omega
  have hkey : (recipient, t.nextSequence recipient) ∉ t.messages.keys := by
    intro hmem
    obtain ⟨e, he, hkey⟩ := List.mem_map.mp hmem
    have hle := h.sequences_le e he (congrArg Prod.fst hkey)
    have hsequence : e.1.2 = t.nextSequence recipient := congrArg Prod.snd hkey
    omega
  rw [raiseIf_of_not hfull, Method.run_ofExcept_ok_bind, validateClockValue,
    raiseIf_of_not (not_not.mpr hclock), Py.ok_bind, Py.pure_eq_ok, Method.run_ofExcept_ok_bind,
    Method.run_bind_of_ok (run_execute_of_ok hselect), ← hnext,
    Method.run_bind_of_ok (run_execute_of_ok (updateApiSequence_ok hapi)),
    Method.run_bind_of_ok (run_execute_of_ok (upsertMailbox_ok hrecipient hle)),
    Int.toNat_natCast]
  obtain ⟨t₃, hinsert⟩ : ∃ t₃, insertMessage recipient (t.nextSequence recipient : ℕ)
      (t.apiMessageSequence + 1 : ℕ) created accepted author data { t with
        apiMessageSequence := t.apiMessageSequence + 1
        mailboxSequences := t.mailboxSequences.set recipient (t.nextSequence recipient) } =
      .ok ((), t₃) :=
    ⟨_, insertMessage_ok hrecipient hauthor ⟨Nat.le_add_left 1 _, hle⟩ ⟨Nat.le_add_left 1 _, hapi⟩
      (Int.ofNat_le.mp hcreated.2) (Int.ofNat_le.mp hclock.2) hunique hkey⟩
  dsimp only
  rw [Method.run_bind_of_ok (run_execute_of_ok hinsert), Method.run_bind_of_ok (run_commit _ _)]
  rfl

/-- Without failures a message is stored in consistent tables, unless its mailbox is full. -/
theorem storeMessage_run {t : Tables} (h : t.Consistent) (hcapacity : t.HasCapacity)
    {createdAt clock : ℤ} {author recipient body : Str} (hcreated : 0 ≤ createdAt ∧
      createdAt ≤ maxU32)
    (hbody : (encodeUtf8 body).isSome) (hauthor : (encodeUtf8 author).isSome)
    (hrecipient : (encodeUtf8 recipient).isSome) (hclock : 0 ≤ clock ∧ clock ≤ maxSqliteInteger) :
    ((storeMessage createdAt author recipient body clock []).run t).1 =
      if t.highest recipient = maxU32 then
        .error ⟨.sequenceExhaustedError, "mailbox sequence is exhausted"⟩
      else .ok (t.nextSequence recipient) :=
  storeMessage_run_of_countsFor (h.countsFor hcapacity recipient) hcreated hbody hauthor
    hrecipient hclock

/-- Without failures a bulletin is stored, unless the sequence is exhausted. -/
theorem storeBulletin_run {t : Tables} (hmax : t.bulletinSequence ≤ maxU32)
    (hkeys : ∀ e ∈ t.bulletins.entries, e.1 ≤ t.bulletinSequence)
    {createdAt clock : ℤ} {author title body : Str} (hcreated : 0 ≤ createdAt ∧ createdAt ≤ maxU32)
    (hbody : (encodeUtf8 body).isSome) (hauthor : (encodeUtf8 author).isSome)
    (htitle : (encodeUtf8 title).isSome) (hclock : 0 ≤ clock ∧ clock ≤ maxSqliteInteger) :
    ((storeBulletin createdAt author title body clock []).run t).1 =
      if t.bulletinSequence = maxU32 then
        .error ⟨.sequenceExhaustedError, "bulletin sequence is exhausted"⟩
      else .ok (t.bulletinSequence + 1) := by
  obtain ⟨data, hdata⟩ := Option.isSome_iff_exists.mp hbody
  obtain ⟨created, rfl⟩ := Int.eq_ofNat_of_zero_le hcreated.1
  obtain ⟨accepted, rfl⟩ := Int.eq_ofNat_of_zero_le hclock.1
  have hselect : select (fun t => pure t.bulletinSequence) t = .ok (t.bulletinSequence, t) := rfl
  rw [storeBulletin, requireU32, raiseIf_of_not (not_not.mpr hcreated), Method.run_ofExcept_ok_bind,
    encodeBody_eq_ok.mpr hdata, Method.run_ofExcept_ok_bind, run_closing_atomically_nil,
    storeBulletinTransaction, Method.run_bind_of_ok (run_execute_of_ok hselect),
    validateStoredU32_of_le true (Nat.zero_le _) hmax, Method.run_ofExcept_ok_bind]
  by_cases hfull : t.bulletinSequence = maxU32
  · rw [raiseIf, if_pos hfull, if_pos hfull]
    rfl
  have hle : t.bulletinSequence + 1 ≤ maxU32 := by omega
  have hkey : t.bulletinSequence + 1 ∉ t.bulletins.keys := by
    intro hmem
    obtain ⟨e, he, hkey⟩ := List.mem_map.mp hmem
    have hle := hkeys e he
    omega
  rw [raiseIf_of_not hfull, Method.run_ofExcept_ok_bind, if_neg hfull, validateClockValue,
    raiseIf_of_not (not_not.mpr hclock), Py.ok_bind, Py.pure_eq_ok, Method.run_ofExcept_ok_bind,
    Int.toNat_natCast, Method.run_bind_of_ok (run_execute_of_ok (insertBulletin_ok hauthor htitle
      ⟨Nat.le_add_left 1 _, hle⟩ (Int.ofNat_le.mp hcreated.2) (Int.ofNat_le.mp hclock.2) hkey)),
    Method.run_bind_of_ok (run_execute_of_ok (updateBulletinSequence_ok hle)),
    Method.run_bind_of_ok (run_commit _ _)]
  rfl

end OpenQSP
