import PtyRuntime.Domain.Identity

/-! Exact bounded retention and explicit gaps, independent of observer queues.
A method that takes `&mut self` and may fail returns its result together with
the buffer it leaves behind, so that a partial update could not be hidden. -/
namespace PtyRuntime

inductive ReplayError where
  | foreignLifetime
  | futureCursor
  | offsetExhausted
  | emptyPageLimit
  | allocationFailed
  deriving DecidableEq, Repr

/-- One bounded read result. -/
inductive ReplayPage where
  | gap (start stop : ReplayCursor)
  | bytes (start next : ReplayCursor) (payload : Bytes)
  | pending
  deriving DecidableEq, Repr

/-- Retained output of one lifetime. `endOffset` counts every produced byte,
evicted ones included; `allocated` is the capacity the byte deque reports. -/
structure ReplayBuffer where
  lifetime : SessionLifetime
  limit : Nat
  endOffset : Nat
  bytes : Bytes
  allocated : Nat
  deriving DecidableEq, Repr

namespace ReplayBuffer

def new (lifetime : SessionLifetime) (limit : Nat) : ReplayBuffer :=
  { lifetime, limit, endOffset := 0, bytes := [], allocated := 0 }

/-- Oldest available byte position. -/
def floor (b : ReplayBuffer) : ReplayCursor :=
  { lifetime := b.lifetime, offset := b.endOffset - b.bytes.length }

/-- Position immediately after all produced output, including evicted bytes. -/
def endCursor (b : ReplayBuffer) : ReplayCursor :=
  { lifetime := b.lifetime, offset := b.endOffset }

/-- What an allocator does with one exact reservation: refuse it, or grant it
with some excess that the collection then reports as its capacity. -/
abbrev Allocation := Option Nat

/-- Reserve requested byte capacity after an external budget admitted it. -/
def reserveCapacity (b : ReplayBuffer) (capacity : Nat) (allocation : Allocation) :
    Except ReplayError Nat × ReplayBuffer :=
  let target := min capacity b.limit
  if b.allocated < target then
    match allocation with
    | none => (.error .allocationFailed, b)
    | some excess => (.ok (target + excess), { b with allocated := target + excess })
  else (.ok b.allocated, b)

/-- A reservation only ever raises the capacity. -/
theorem reserveCapacity_cases (b : ReplayBuffer) (capacity : Nat)
    (allocation : Allocation) :
    (∃ e, b.reserveCapacity capacity allocation = (.error e, b)) ∨
      ∃ actual, b.allocated ≤ actual ∧
        b.reserveCapacity capacity allocation = (.ok actual, { b with allocated := actual }) := by
  unfold reserveCapacity
  by_cases below : b.allocated < min capacity b.limit
  · simp only [if_pos below]
    cases allocation with
    | none => exact .inl ⟨_, rfl⟩
    | some excess => exact .inr ⟨_, by omega, rfl⟩
  · simp only [if_neg below]
    exact .inr ⟨b.allocated, Nat.le_refl _, rfl⟩

/-- Release all retention storage while preserving absolute stream position. -/
def releaseStorage (b : ReplayBuffer) : ReplayBuffer := { b with bytes := [], allocated := 0 }

/-- Capacity of the deque once it holds `length` bytes: unchanged while they
fit, else grown by the collection's amortized policy. -/
def grownCapacity (allocated length : Nat) : Nat :=
  if length ≤ allocated then allocated else max 8 (max (2 * allocated) length)

/-- Append while retaining no more than an externally admitted byte ceiling. -/
def appendWithLimit (b : ReplayBuffer) (bytes : Bytes) (retention : Nat) :
    Except ReplayError Unit × ReplayBuffer :=
  let limit := min b.limit retention
  match checkedAdd b.endOffset bytes.length with
  | none => (.error .offsetExhausted, b)
  | some endOffset =>
    let suffix := bytes.drop (bytes.length - limit)
    let keepOld := limit - suffix.length
    let discard := b.bytes.length - keepOld
    let retained := b.bytes.drop discard ++ suffix
    (.ok (), { b with
      bytes := retained, endOffset, allocated := grownCapacity b.allocated retained.length })

/-- Append produced bytes, retaining at most the configured suffix. -/
def append (b : ReplayBuffer) (bytes : Bytes) : Except ReplayError Unit × ReplayBuffer :=
  b.appendWithLimit bytes b.limit

/-- Evict oldest bytes to satisfy external pressure, preserving absolute offsets. -/
def retainAtMost (b : ReplayBuffer) (bytes : Nat) : ReplayBuffer :=
  { b with bytes := b.bytes.drop (b.bytes.length - bytes) }

/-- Read without mutating cursor state. A cancelled caller may retry exactly. -/
def read (b : ReplayBuffer) (cursor : ReplayCursor) (maxBytes : Nat) :
    Except ReplayError ReplayPage :=
  if cursor.lifetime ≠ b.lifetime then .error .foreignLifetime
  else if b.endOffset < cursor.offset then .error .futureCursor
  else if maxBytes = 0 then .error .emptyPageLimit
  else if cursor.offset < b.floor.offset then .ok (.gap cursor b.floor)
  else if cursor.offset = b.endOffset then .ok .pending
  else
    let payload := (b.bytes.drop (cursor.offset - b.floor.offset)).take maxBytes
    .ok (.bytes cursor
      { lifetime := b.lifetime, offset := cursor.offset + payload.length } payload)

/-- The operations a caller can interleave on one buffer. -/
inductive Op where
  | append (bytes : Bytes)
  | appendWithLimit (bytes : Bytes) (retention : Nat)
  | retainAtMost (bytes : Nat)
  | releaseStorage

/-- One operation with its result; the two evictions cannot fail. -/
def step (b : ReplayBuffer) : Op → Except ReplayError Unit × ReplayBuffer
  | .append bytes => b.append bytes
  | .appendWithLimit bytes retention => b.appendWithLimit bytes retention
  | .retainAtMost bytes => (.ok (), b.retainAtMost bytes)
  | .releaseStorage => (.ok (), b.releaseStorage)

def run (b : ReplayBuffer) (ops : List Op) : ReplayBuffer := ops.foldl (fun b op => (b.step op).2) b

end ReplayBuffer
end PtyRuntime
