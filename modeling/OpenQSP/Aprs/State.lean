import Mathlib.Algebra.Order.Field.Rat
import OpenQSP.Aprs.Carriage
import OpenQSP.Lib.OrderedDict

/-!
# Reassembly and replay

Two bounded tables under `(peer, transaction)`. The reassembler collects the fragments of a request
until all are there; a transaction that is inconsistent with what was collected is dropped. The
replay cache keeps the responses of the requests that completed lately.

Both forget old entries when they are used, and the oldest ones when they are full. Times are
rational numbers of seconds.

## Main definitions

* `Reassembler.expire`, `Reassembler.add`
* `ReplayCache.expire`, `ReplayCache.get`, `ReplayCache.evict`, `ReplayCache.put`
-/

namespace OpenQSP

/-- A transaction of a peer. -/
abbrev TransactionKey := Str × Str

/-! ### Reassembly -/

/-- What a fragment contributes: text under Q1, bytes under Q2. -/
inductive Part
  | text (data : Str)
  | raw (data : Bytes)
  deriving DecidableEq

structure Assembly where
  total : ℕ
  firstSeen : ℚ
  lastSeen : ℚ
  version : ℕ
  parts : OrderedDict ℕ Part

structure ReassemblyBounds where
  ttl : ℚ
  maxEntries : ℕ
  ttl_pos : 0 < ttl
  maxEntries_pos : 0 < maxEntries

abbrev Reassembler := OrderedDict TransactionKey Assembly

/-- The part a fragment contributes; a Q2 fragment must carry its bytes. -/
def APRSFragment.part (fragment : APRSFragment) : Py Part :=
  if fragment.version = 2 then
    match fragment.rawData with
    | none => .error (.carriage "Q2 fragment is missing raw data")
    | some raw => .ok (.raw raw)
  else .ok (.text fragment.data)

/-- The collected part under an index. -/
def Assembly.partAt (entry : Assembly) (index : ℕ) : Py Part :=
  match entry.parts.get? index with
  | some part => .ok part
  | none => .error ⟨.keyError, toString index⟩

/-- `bytes(part)` -/
def Part.bytes : Part → Py Bytes
  | .raw data => .ok data
  | .text _ => .error ⟨.typeError, "string argument without an encoding"⟩

/-- The frame of a complete assembly. -/
def Assembly.frame (entry : Assembly) : Py Bytes :=
  if entry.version = 2 then do
    let pieces ← (List.range entry.total).mapM fun index => do (← entry.partAt index).bytes
    let frame := pieces.flatten
    match decodeFrameWithFlags frame with
    | .ok _ => return frame
    | .error _ => .error (.carriage "invalid OpenQSP Q2 frame carriage")
  else do
    let pieces ← (List.range entry.total).mapM entry.partAt
    decodeFrameText (pieces.flatMap fun
      | .text data => data
      | .raw data => ofAscii data)

namespace Reassembler

/-- Drop the assemblies that have not grown for `ttl` seconds. -/
def expire (bounds : ReassemblyBounds) (now : ℚ) (entries : Reassembler) : Reassembler :=
  entries.filter fun e => ¬bounds.ttl ≤ now - e.2.lastSeen

/-- Add a part to the assembly `entry` of `key`, which is in the table or about to be. -/
def collect (key : TransactionKey) (entry : Assembly) (fragment : APRSFragment) (now : ℚ)
    (entries : Reassembler) : Py (Option Bytes) × Reassembler :=
  match fragment.part with
  | .error e => (.error e, entries.erase key)
  | .ok part =>
    if (entry.parts.get? fragment.index).any (· ≠ part) then
      (.error ⟨.transactionConflict, "conflicting duplicate fragment"⟩, entries.erase key)
    else
      let entry := { entry with
        parts := entry.parts.set fragment.index part
        lastSeen := now }
      if entry.parts.size ≠ entry.total then
        (.ok none, (entries.set key entry).moveToEnd key)
      else
        (some <$> entry.frame, entries.erase key)

/-- Add a fragment: the frame when it was the last one missing. Every exception but that of an
invalid frame means that the transaction was inconsistent; in either case it is dropped. -/
def add (bounds : ReassemblyBounds) (peer : Str) (fragment : APRSFragment) (now : ℚ)
    (entries : Reassembler) : Py (Option Bytes) × Reassembler :=
  let entries := entries.expire bounds now
  let key := (peer, fragment.transactionId)
  match entries.get? key with
  | none =>
    collect key ⟨fragment.total, now, now, fragment.version, .empty⟩ fragment now
      (entries.dropFirst (entries.size + 1 - bounds.maxEntries))
  | some entry =>
    if entry.total ≠ fragment.total ∨ entry.version ≠ fragment.version then
      (.error ⟨.transactionConflict, "inconsistent fragment profile or count"⟩, entries.erase key)
    else collect key entry fragment now entries

end Reassembler

/-! ### Replay -/

structure Replay where
  request : Bytes
  responses : List Bytes
  createdAt : ℚ
  deriving DecidableEq

structure ReplayBounds where
  ttl : ℚ
  maxEntries : ℕ
  maxPerPeer : ℕ
  ttl_pos : 0 < ttl
  maxEntries_pos : 0 < maxEntries
  maxPerPeer_pos : 0 < maxPerPeer

abbrev ReplayCache := OrderedDict TransactionKey Replay

namespace ReplayCache

/-- Drop the requests that completed `ttl` seconds ago. -/
def expire (bounds : ReplayBounds) (now : ℚ) (entries : ReplayCache) : ReplayCache :=
  entries.filter fun e => ¬bounds.ttl ≤ now - e.2.createdAt

/-- Look up a transaction and make it the youngest one. -/
def get (bounds : ReplayBounds) (key : TransactionKey) (now : ℚ) (entries : ReplayCache) :
    Option Replay × ReplayCache :=
  let entries := entries.expire bounds now
  (entries.get? key, entries.moveToEnd key)

/-- The oldest transactions of a peer that has too many. -/
def stale (bounds : ReplayBounds) (peer : Str) (entries : ReplayCache) : List TransactionKey :=
  let peerKeys := entries.keys.filter fun k => k.1 = peer
  peerKeys.take (peerKeys.length - bounds.maxPerPeer)

/-- Make room: first the oldest transactions of a peer give way, then the oldest ones of all. -/
def evict (bounds : ReplayBounds) (peer : Str) (entries : ReplayCache) : ReplayCache :=
  let entries := entries.filter fun e => e.1 ∉ entries.stale bounds peer
  entries.dropFirst (entries.size - bounds.maxEntries)

/-- Enter a completed request. -/
def put (bounds : ReplayBounds) (key : TransactionKey) (value : Replay) (entries : ReplayCache) :
    ReplayCache := evict bounds key.1 ((entries.set key value).moveToEnd key)

variable {bounds : ReplayBounds} {key : TransactionKey} {now : ℚ} {entries : ReplayCache}

theorem mem_expire {e : TransactionKey × Replay} :
    e ∈ (entries.expire bounds now).entries ↔
      e ∈ entries.entries ∧ now - e.2.createdAt < bounds.ttl := by
  rw [expire, OrderedDict.mem_entries_filter, decide_eq_true_eq, not_le]

theorem expire_get : (entries.get bounds key now).2.expire bounds now =
    (entries.get bounds key now).2 := by
  refine OrderedDict.filter_eq_self fun e he => ?_
  have he := OrderedDict.mem_entries_moveToEnd.mp he
  exact decide_eq_true (not_le.mpr (mem_expire.mp he).2)

/-- A second look-up at the same time finds the same and changes nothing more. -/
theorem get_get : (entries.get bounds key now).2.get bounds key now =
    entries.get bounds key now := by
  rw [get, expire_get]
  simp only [get, OrderedDict.get?_moveToEnd, OrderedDict.moveToEnd_moveToEnd]

end ReplayCache

end OpenQSP
