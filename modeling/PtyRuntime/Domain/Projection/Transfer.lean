import PtyRuntime.Domain.Projection.Options

/-! Ordering and retention policy of state transfer. `sequence` counts successful
model mutations, not bytes: a resize advances it without moving `processed`, so
one cursor addresses both kinds of continuation event. -/
namespace PtyRuntime

/-- Independent next-event cursor. -/
structure TransferCursor where
  lifetime : SessionLifetime
  sequence : Nat
  deriving DecidableEq, Repr

/-- Exact state represented before the next transfer event. -/
structure TransferBoundary where
  cursor : TransferCursor
  processed : ReplayCursor
  controlGeneration : ControlGeneration
  deriving DecidableEq, Repr

inductive TransferError where
  | foreignLifetime
  | futureCursor
  | resyncRequired (oldest : TransferCursor)
  | closed
  | unavailable
  deriving DecidableEq, Repr

/-- Immutable end of the applied prefix, distinct from process completion. -/
structure TransferEnd where
  boundary : TransferBoundary
  drain : Option DrainOutcome
  projectionFailure : Option ProjectionError
  deriving DecidableEq, Repr

structure TransferOrder where
  boundary : TransferBoundary
  oldest : Nat
  sealed : Option TransferEnd
  closed : Bool
  unavailable : Bool
  deriving DecidableEq, Repr

namespace TransferOrder

/-- Begin at an empty model. -/
def new (lifetime : SessionLifetime) : TransferOrder where
  boundary := {
    cursor := { lifetime, sequence := 0 }
    processed := { lifetime, offset := 0 }
    controlGeneration := .initial }
  oldest := 0
  sealed := none
  closed := false
  unavailable := false

def requireReadable (o : TransferOrder) : Except TransferError Unit :=
  if o.closed then .error .closed
  else if o.unavailable then .error .unavailable
  else .ok ()

def requireAppend (o : TransferOrder) : Except TransferError Unit :=
  match o.requireReadable with
  | .error e => .error e
  | .ok () => if o.sealed.isSome then .error .closed else .ok ()

def validateIdentity (o : TransferOrder) (cursor : TransferCursor) : Except TransferError Unit :=
  if cursor.lifetime ≠ o.boundary.cursor.lifetime then .error .foreignLifetime
  else if cursor.sequence > o.boundary.cursor.sequence then .error .futureCursor
  else .ok ()

def advance (o : TransferOrder) : Except TransferError Unit × TransferOrder :=
  match checkedAdd o.boundary.cursor.sequence 1 with
  | none => (.error .unavailable, o)
  | some sequence =>
    (.ok (), { o with
      boundary := { o.boundary with cursor := { o.boundary.cursor with sequence } } })

/-- Advance exactly once after one successful native feed. -/
def output (o : TransferOrder) (processed : ReplayCursor) :
    Except TransferError TransferBoundary × TransferOrder :=
  match o.requireAppend with
  | .error e => (.error e, o)
  | .ok () =>
    if processed.lifetime ≠ o.boundary.processed.lifetime ∨
        processed.offset ≤ o.boundary.processed.offset then (.error .unavailable, o)
    else
      match o.advance with
      | (.error e, o) => (.error e, o)
      | (.ok (), o) =>
        let o := { o with boundary := { o.boundary with processed } }
        (.ok o.boundary, o)

/-- Advance exactly once after a successful ordered OS/model resize. -/
def resized (o : TransferOrder) (generation : ControlGeneration) :
    Except TransferError TransferBoundary × TransferOrder :=
  match o.requireAppend with
  | .error e => (.error e, o)
  | .ok () =>
    if o.boundary.controlGeneration.next ≠ some generation then (.error .unavailable, o)
    else
      match o.advance with
      | (.error e, o) => (.error e, o)
      | (.ok (), o) =>
        let o := { o with boundary := { o.boundary with controlGeneration := generation } }
        (.ok o.boundary, o)

/-- Discard through a known boundary; holes invalidate all earlier cursors. -/
def discardBefore (o : TransferOrder) (cursor : TransferCursor) :
    Except TransferError Unit × TransferOrder :=
  match o.validateIdentity cursor with
  | .error e => (.error e, o)
  | .ok () => (.ok (), { o with oldest := max o.oldest cursor.sequence })

/-- Validate identity, future position and retained range, in that order. -/
def validate (o : TransferOrder) (cursor : TransferCursor) : Except TransferError Unit :=
  match o.requireReadable with
  | .error e => .error e
  | .ok () =>
    match o.validateIdentity cursor with
    | .error e => .error e
    | .ok () =>
      if cursor.sequence < o.oldest then
        .error (.resyncRequired { o.boundary.cursor with sequence := o.oldest })
      else .ok ()

/-- Capture a valid terminal prefix once; successful endings require a drain. -/
def sealEnd (o : TransferOrder) (drain : Option DrainOutcome) (failure : Option ProjectionError) :
    Except TransferError Unit × TransferOrder :=
  match o.requireReadable with
  | .error e => (.error e, o)
  | .ok () =>
    if o.sealed.isNone then
      if drain.isNone ∧ failure.isNone then (.error .unavailable, o)
      else
        (.ok (), { o with
          sealed := some { boundary := o.boundary, drain, projectionFailure := failure } })
    else (.ok (), o)

def acceptsEvents (o : TransferOrder) : Bool := !o.closed && !o.unavailable && o.sealed.isNone

/-- A checkpoint boundary, while observer access remains available. -/
def openBoundary (o : TransferOrder) : Except TransferError TransferBoundary :=
  match o.requireReadable with
  | .error e => .error e
  | .ok () => .ok o.boundary

def close (o : TransferOrder) : TransferOrder := { o with closed := true }

def invalidate (o : TransferOrder) : TransferOrder := { o with unavailable := true }

end TransferOrder
end PtyRuntime
