import PtyRuntime.Domain.Projection.Transfer
import PtyRuntime.Application.Quota
import PtyRuntime.SortedMap

/-! The journal of successful model mutations that transfer observers continue
from. Every method runs under the journal's mutex, so it is one step. Whether the
slot and byte leases of an append are granted depends on shared quotas, and is a
parameter: `leases n` answers the loop's `n`-th attempt. -/
namespace PtyRuntime

inductive RecordKind where
  | output (bytes : Bytes)
  | resize (size : TerminalSize) (generation : ControlGeneration)
  deriving DecidableEq, Repr

/-- One retained mutation and the boundary after it. -/
structure Record where
  after : TransferBoundary
  kind : RecordKind
  deriving DecidableEq, Repr

inductive TransferRead where
  | event (record : Record)
  | pending
  | sealedEnd (sealed : TransferEnd)
  deriving DecidableEq, Repr

structure Journal where
  order : TransferOrder
  records : SortedMap Nat Record
  observers : SortedMap Nat (Option Waker)
  nextObserver : Nat

/-- One bounded observer registration and the boundary it was opened at. -/
structure TransferObserver where
  id : Nat
  start : TransferBoundary
  deriving DecidableEq, Repr

namespace Journal

def new (lifetime : SessionLifetime) : Journal where
  order := .new lifetime
  records := .empty
  observers := .empty
  nextObserver := 0

/-- Register an observer whose permit has been granted. -/
def openObserver (j : Journal) : Except ProjectionError TransferObserver × Journal :=
  match j.order.openBoundary with
  | .error .closed => (.error .closed, j)
  | .error _ => (.error .capacity, j)
  | .ok start =>
    match checkedAdd j.nextObserver 1 with
    | none => (.error .capacity, j)
    | some next =>
      (.ok { id := j.nextObserver, start },
        { j with nextObserver := next, observers := j.observers.insert j.nextObserver none })

/-- Take the waker registered for one observer. -/
def takeWaker (j : Journal) (id : Nat) : Journal :=
  { j with observers := j.observers.mapValues fun key waker => if key = id then none else waker }

/-- What a read at `cursor` by observer `id` returns. -/
def readResult (j : Journal) (id : Nat) (start cursor : TransferCursor) :
    Except TransferError TransferRead :=
  if (j.observers.get? id).isNone then .error .closed
  else
    match j.order.validate cursor with
    | .error e => .error e
    | .ok () =>
      if cursor.sequence < start.sequence then .error (.resyncRequired start)
      else
        match j.records.get? cursor.sequence with
        | some record => .ok (.event record)
        | none =>
          if cursor = j.order.boundary.cursor then
            match j.order.sealed with
            | none => .ok .pending
            | some sealed => .ok (.sealedEnd sealed)
          else .error (.resyncRequired j.order.boundary.cursor)

/-- Read at an explicit cursor; a pending read leaves its waker registered. -/
def read (j : Journal) (id : Nat) (start cursor : TransferCursor) (waker : Option Waker) :
    Except TransferError TransferRead × Journal :=
  let taken := j.takeWaker id
  match taken.readResult id start cursor with
  | .ok .pending =>
    (.ok .pending, { taken with
      observers := taken.observers.mapValues fun key old => if key = id then waker else old })
  | result => (result, taken)

def cancelWait (j : Journal) (id : Nat) : Journal := j.takeWaker id

/-- Deregister; the last observer's departure releases all retention. -/
def remove (j : Journal) (id : Nat) : Journal :=
  let j := { j with observers := j.observers.erase id }
  if j.observers.isEmpty then
    { j with records := .empty, order := (j.order.discardBefore j.order.boundary.cursor).2 }
  else j

/-- The registered wakers, each taken. -/
def takeWakers (j : Journal) : List Waker × Journal :=
  (j.observers.entries.filterMap (·.2),
    { j with observers := j.observers.mapValues fun _ _ => none })

/-- Evict from the oldest record until the leases of attempt `n` or a later one
are granted, or no record is left to evict. -/
def acquire (leases : Nat → Bool) (n : Nat) (order : TransferOrder)
    (records : SortedMap Nat Record) : Bool × TransferOrder × SortedMap Nat Record :=
  if leases n then (true, order, records)
  else
    match _popped : records.popFirst with
    | none => (false, order, records)
    | some ((_, evicted), rest) =>
      acquire leases (n + 1) (order.discardBefore evicted.after.cursor).2 rest
termination_by records.entries.length
decreasing_by exact SortedMap.length_popFirst _popped

/-- Retain a mutation that advanced the order to `after`, evicting as needed. -/
def retain (j : Journal) (leases : Nat → Bool) (kind : RecordKind) (after : TransferBoundary) :
    Journal :=
  if j.observers.isEmpty then { j with order := (j.order.discardBefore after.cursor).2 }
  else
    match acquire leases 0 j.order j.records with
    | (true, order, records) =>
      { j with order, records := records.insert (after.cursor.sequence - 1) { after, kind } }
    | (false, order, _) =>
      -- Even a zero-byte resize hole invalidates the previous cursor.
      { j with records := .empty, order := (order.discardBefore after.cursor).2 }

/-- The order's verdict on a mutation. -/
def advance (j : Journal) (kind : RecordKind) (processed : Option ReplayCursor) :
    Except TransferError TransferBoundary × TransferOrder :=
  match kind with
  | .output _ =>
    match processed with
    | none => (.error .unavailable, j.order)
    | some cursor => j.order.output cursor
  | .resize _ generation => j.order.resized generation

def append (j : Journal) (leases : Nat → Bool) (kind : RecordKind)
    (processed : Option ReplayCursor) : List Waker × Journal :=
  if !j.order.acceptsEvents then ([], j)
  else
    match j.advance kind processed with
    | (.error _, order) => takeWakers { j with order := order.invalidate, records := .empty }
    | (.ok after, order) => (({ j with order }).retain leases kind after).takeWakers

def output (j : Journal) (leases : Nat → Bool) (bytes : Bytes) (processed : ReplayCursor) :
    List Waker × Journal := j.append leases (.output bytes) (some processed)

def resized (j : Journal) (leases : Nat → Bool) (size : TerminalSize)
    (generation : ControlGeneration) : List Waker × Journal :=
  j.append leases (.resize size generation) none

/-- Seal the applied prefix. -/
def finish (j : Journal) (drain : Option DrainOutcome) (failure : Option ProjectionError) :
    List Waker × Journal :=
  takeWakers { j with order := (j.order.sealEnd drain failure).2 }

def close (j : Journal) : List Waker × Journal :=
  takeWakers { j with order := j.order.close, records := .empty }

end Journal
end PtyRuntime
