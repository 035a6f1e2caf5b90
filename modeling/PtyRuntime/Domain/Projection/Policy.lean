import PtyRuntime.Domain.Projection.Options

/-! Pure projection state transitions. The application serializes these calls
and owns the external work each one authorizes. -/
namespace PtyRuntime

/-- Terminal ownership state, independent from process exit and output drain. -/
inductive Residency where
  | resident
  | parking
  | parked
  | restoring
  | usable
  | failed
  | closing
  | closed
  deriving DecidableEq, Repr

namespace Residency

/-- Cleanup has been requested or has finished. -/
def isClosing : Residency → Bool
  | .closing | .closed => true
  | _ => false

end Residency

/-- One consistent snapshot of authoritative positions and residency. -/
structure ProjectionStatus where
  published : ReplayCursor
  processed : ReplayCursor
  controlGeneration : ControlGeneration
  residency : Residency
  history : RestorationProgress
  skippedHistoryPages : Nat
  failure : Option ProjectionError
  parkingFailure : Option ProjectionError
  deriving DecidableEq, Repr

/-- Immutable parking identity; activity changes invalidate an outstanding attempt. -/
structure ParkAttempt where
  generation : Nat
  activity : Nat
  processed : ReplayCursor
  controlGeneration : ControlGeneration
  deriving DecidableEq, Repr

structure ProjectionPolicy where
  status : ProjectionStatus
  options : ProjectionOptions
  activity : Nat
  operation : Nat
  lastActivity : Nat
  retryAt : Nat
  attempts : Nat
  deriving DecidableEq, Repr

namespace ProjectionPolicy

/-- Start one fresh live model at stream position zero. -/
def new (cellSize : Nat) (lifetime : SessionLifetime) (options : ProjectionOptions) (now : Nat) :
    Except ProjectionError ProjectionPolicy :=
  match options.validate cellSize with
  | .error e => .error e
  | .ok options =>
    .ok {
      status := {
        published := ⟨lifetime, 0⟩
        processed := ⟨lifetime, 0⟩
        controlGeneration := .initial
        residency := .resident
        history := .complete
        skippedHistoryPages := 0
        failure := none
        parkingFailure := none }
      options
      activity := 0
      operation := 0
      lastActivity := now
      retryAt := now
      attempts := 0 }

/-- Mutations invalidate a parking commit even before native execution starts. -/
def recordActivity (p : ProjectionPolicy) (now : Nat) :
    Except ProjectionError Unit × ProjectionPolicy :=
  if p.status.residency.isClosing then (.error .closed, p)
  else
    match checkedAdd p.activity 1 with
    | none => (.error .capacity, p)
    | some activity =>
      (.ok (), { p with activity, lastActivity := now, retryAt := now, attempts := 0 })

/-- Record all-or-none parser admission, including output while projection has failed. -/
def admitOutput (p : ProjectionPolicy) (bytes now : Nat) :
    Except ProjectionError Unit × ProjectionPolicy :=
  if p.status.residency.isClosing then (.error .closed, p)
  else
    match checkedAdd p.status.published.offset bytes with
    | none => (.error .capacity, p)
    | some next =>
      match p.recordActivity now with
      | (.error e, p) => (.error e, p)
      | (.ok (), p) =>
        (.ok (), { p with
          status := { p.status with published := { p.status.published with offset := next } } })

/-- Advance only after native feed succeeds; never consume unadmitted bytes. -/
def recordProcessed (p : ProjectionPolicy) (bytes : Nat) :
    Except ProjectionError Unit × ProjectionPolicy :=
  match checkedAdd p.status.processed.offset bytes with
  | none => (.error .capacity, p)
  | some next =>
    if p.status.published.offset < next then (.error .invalidConfiguration, p)
    else
      (.ok (), { p with
        status := { p.status with processed := { p.status.processed with offset := next } } })

/-- Apply exactly the next control generation after both OS and model work succeed. -/
def recordControlApplied (p : ProjectionPolicy) (generation : ControlGeneration) :
    Except ProjectionError Unit × ProjectionPolicy :=
  if p.status.controlGeneration.next ≠ some generation then (.error .invalidConfiguration, p)
  else (.ok (), { p with status := { p.status with controlGeneration := generation } })

/-- Time remaining before eligibility, or none after bounded retries are exhausted. -/
def parkDelay (p : ProjectionPolicy) (now : Nat) : Option Nat :=
  if p.status.residency ≠ .resident ∨ p.options.maxParkAttempts ≤ p.attempts then none
  else some (max (durationAdd p.lastActivity p.options.parkAfter) p.retryAt - now)

/-- Capture the exact current version before encoding. -/
def beginPark (p : ProjectionPolicy) (now : Nat) :
    Except ProjectionError ParkAttempt × ProjectionPolicy :=
  if p.parkDelay now ≠ some 0 ∨ p.status.published ≠ p.status.processed then
    (.error .invalidConfiguration, p)
  else
    match checkedAdd p.operation 1 with
    | none => (.error .capacity, p)
    | some operation =>
      (.ok {
        generation := operation
        activity := p.activity
        processed := p.status.processed
        controlGeneration := p.status.controlGeneration },
      { p with
        operation
        status := { p.status with residency := .parking }
        attempts := p.attempts + 1 })

/-- Whether an attempt still describes the exact current version. -/
def attemptValid (p : ProjectionPolicy) (attempt : ParkAttempt) (noPendingWork : Bool) : Bool :=
  p.status.residency = .parking ∧ p.operation = attempt.generation ∧
    p.activity = attempt.activity ∧ p.status.processed = attempt.processed ∧
    p.status.controlGeneration = attempt.controlGeneration ∧ noPendingWork

/-- Atomic logical release decision after successful provider publication. -/
def commitPark (p : ProjectionPolicy) (attempt : ParkAttempt) (noPendingWork : Bool) :
    Bool × ProjectionPolicy :=
  if p.attemptValid attempt noPendingWork then
    (true, { p with
      status := { p.status with residency := .parked, parkingFailure := none }
      attempts := 0 })
  else if p.status.residency = .parking then
    (false, { p with status := { p.status with residency := .resident } })
  else (false, p)

/-- Failed encoding or storage retains the model and schedules a bounded retry. -/
def parkFailed (p : ProjectionPolicy) (error : ProjectionError) (now : Nat) : ProjectionPolicy :=
  { p with
    status := { p.status with
      residency := if p.status.residency = .parking then .resident else p.status.residency
      parkingFailure := some error }
    retryAt := durationAdd now p.options.retryAfter }

def requireRestorationSource (p : ProjectionPolicy) (allowed : List Residency) :
    Except ProjectionError Unit :=
  if p.status.residency.isClosing then .error .closed
  else
    match p.status.failure with
    | some error => .error error
    | none => if p.status.residency ∈ allowed then .ok () else .error .invalidConfiguration

/-- Begin restoration only from an immutable parked source. -/
def beginRestore (p : ProjectionPolicy) : Except ProjectionError Unit × ProjectionPolicy :=
  match p.requireRestorationSource [.parked] with
  | .error e => (.error e, p)
  | .ok () => (.ok (), { p with status := { p.status with residency := .restoring, history := .usable } })

/-- Record a native restoration milestone from an admitted restore operation. -/
def restorationProgress (p : ProjectionPolicy) (progress : RestorationProgress) :
    Except ProjectionError Unit × ProjectionPolicy :=
  match p.requireRestorationSource [.restoring, .usable] with
  | .error e => (.error e, p)
  | .ok () =>
    match checkedSub progress.skippedPages p.status.history.skippedPages with
    | none => (.error .invalidConfiguration, p)
    | some additional =>
      match checkedAdd p.status.skippedHistoryPages additional with
      | none => (.error .capacity, p)
      | some skippedHistoryPages =>
        (.ok (), { p with
          status := { p.status with
            skippedHistoryPages
            history := progress
            residency := if progress.isFinished then .resident else .usable } })

/-- Fail only projection; process facts and queued output belong elsewhere. -/
def fail (p : ProjectionPolicy) (error : ProjectionError) : ProjectionPolicy :=
  if p.status.residency.isClosing then p
  else { p with status := { p.status with failure := some error, residency := .failed } }

/-- Invalidate all pending state publications immediately. -/
def close (p : ProjectionPolicy) : ProjectionPolicy :=
  if p.status.residency ≠ .closed then
    { p with status := { p.status with residency := .closing } }
  else p

/-- Report exhausted background cleanup without losing the resident model. -/
def maintenanceFailed (p : ProjectionPolicy) (error : ProjectionError) : ProjectionPolicy :=
  { p with status := { p.status with parkingFailure := some error } }

/-- Record bounded teardown failure. -/
def cleanupFailed (p : ProjectionPolicy) (error : ProjectionError) : ProjectionPolicy :=
  { p with status := { p.status with failure := some error } }

/-- Cleanup completed after all accepted operations relinquished ownership. -/
def markClosed (p : ProjectionPolicy) : ProjectionPolicy :=
  { p with status := { p.status with residency := .closed } }

end ProjectionPolicy
end PtyRuntime
