import PtyRuntime.Application.Projection.State

/-! The admitted-work half of a projection. Each operation is one acquisition of
the admission lock: it takes the guarded state and returns what it answers and the
state it leaves. -/
namespace PtyRuntime

/-- What an output chunk should become, decided under the admission lock. -/
inductive OutputAdmission where
  | queue (command : Command)
  | nothing
  | rejected (acceptance : OutputAcceptance)

/-- What admitting an output chunk did. -/
inductive OutputOutcome where
  | queued
  | accepted
  | rejected (acceptance : OutputAcceptance)
  deriving DecidableEq, Repr

inductive CloseRequest where
  | alreadyClosed (outcome : Except ProjectionError Unit)
  | started (rejected : List Command)

/-- Why a parking attempt could not start, or the version it may encode. -/
inductive ParkStart where
  | busy
  | notDue
  | ready (attempt : ParkAttempt)

/-- The outcome an optional error stands for. -/
def settledOutcome (failed : Option ProjectionError) : Except ProjectionError Unit :=
  match failed with
  | none => .ok ()
  | some error => .error error

namespace Admission

def status (a : Admission) : ProjectionStatus := a.policy.status

def closing (a : Admission) : Bool := a.status.residency.isClosing

def parkDelay (a : Admission) (now : Nat) : Option Nat := a.policy.parkDelay now

/-- Durable cleanup result, or none while cleanup is outstanding. -/
def closeOutcome (a : Admission) : Option (Except ProjectionError Unit) :=
  if a.status.residency = .closed then some (settledOutcome a.cleanupFailure) else none

def checkAccepting (a : Admission) : Except ProjectionError Unit :=
  if a.closing then .error .closed else settledOutcome a.status.failure

/-- A policy update that can be refused. -/
def withPolicy (a : Admission) (f : ProjectionPolicy → Except ProjectionError Unit × ProjectionPolicy) :
    Except ProjectionError Unit × Admission :=
  ((f a.policy).1, { a with policy := (f a.policy).2 })

def recordActivity (a : Admission) (now : Nat) : Except ProjectionError Unit × Admission :=
  a.withPolicy (·.recordActivity now)

def admitOutputBytes (a : Admission) (bytes now : Nat) : Except ProjectionError Unit × Admission :=
  a.withPolicy (·.admitOutput bytes now)

/-- Admit one command, applying its own checks under the same lock. -/
def admitCommand (a : Admission) (build : Admission → Except ProjectionError Command × Admission) :
    Except ProjectionError Unit × Admission :=
  match a.checkAccepting with
  | .error e => (.error e, a)
  | .ok () =>
    match build a with
    | (.error e, a) => (.error e, a)
    | (.ok command, a) => (.ok (), { a with queue := a.queue ++ [command] })

/-- Admit reader output, which reports acceptance rather than failing. -/
def admitOutput (a : Admission) (accept : Admission → OutputAdmission × Admission) :
    OutputOutcome × Admission :=
  match accept a with
  | (.queue command, a) => (.queued, { a with queue := a.queue ++ [command] })
  | (.nothing, a) => (.accepted, a)
  | (.rejected acceptance, a) => (.rejected acceptance, a)

/-- Put a command back at the head, or hand it back to be failed when closing. -/
def requeue (a : Admission) (command : Command) : Option Command × Admission :=
  if a.closing then (some command, a) else (none, { a with queue := command :: a.queue })

/-- Take the next command unconditionally. -/
def takeNext (a : Admission) : Option Command × Admission :=
  (a.queue.head?, { a with queue := a.queue.tail })

/-- Whether any work is queued and, if the head is a checkpoint, that command. -/
def takeCheckpointIfAnyWork (a : Admission) : Option (Option Command) × Admission :=
  match a.queue with
  | [] => (none, a)
  | .checkpoint request :: rest => (some (some (.checkpoint request)), { a with queue := rest })
  | _ :: _ => (some none, a)

/-- Take the head only if `allowed` accepts it. -/
def takeNextIf (a : Admission) (allowed : Command → Bool) : Option Command × Admission :=
  if a.queue.head?.any allowed then a.takeNext else (none, a)

/-- Take the head only if it is output and the projection is still serving. -/
def takeNextOutputWhileServing (a : Admission) : Option Command × Admission :=
  if a.status.failure.isSome ∨ a.status.residency = .failed ∨ a.closing then (none, a)
  else a.takeNextIf Command.isOutput

/-- Begin encoding only against a quiet queue and an eligible policy. -/
def beginPark (a : Admission) (now : Nat) : ParkStart × Admission :=
  if a.queue ≠ [] then (.busy, a)
  else
    match a.policy.beginPark now with
    | (.ok attempt, policy) => (.ready attempt, { a with policy })
    | (.error _, policy) => (.notDue, { a with policy })

/-- Decide release atomically with the emptiness check it depends on. -/
def commitPark (a : Admission) (attempt : ParkAttempt) : Bool × Admission :=
  ((a.policy.commitPark attempt a.queue.isEmpty).1,
    { a with policy := (a.policy.commitPark attempt a.queue.isEmpty).2 })

def parkFailed (a : Admission) (error : ProjectionError) (now : Nat) : Admission :=
  { a with policy := a.policy.parkFailed error now }

/-- A commit whose outcome is unknown is remembered beyond the retry. -/
def parkOutcomeUncertain (a : Admission) (error : ProjectionError) (now : Nat) : Admission :=
  { a with unreclaimedFailure := some error, policy := a.policy.parkFailed error now }

/-- Background cleanup exhausted its retries; the model is still live. -/
def maintenanceFailed (a : Admission) (error : ProjectionError) : Admission :=
  { a with cleanupFailure := some error, policy := a.policy.maintenanceFailed error }

def beginRestore (a : Admission) : Except ProjectionError Unit × Admission :=
  a.withPolicy (·.beginRestore)

def recordRestorationProgress (a : Admission) (progress : RestorationProgress) :
    Except ProjectionError Unit × Admission := a.withPolicy (·.restorationProgress progress)

def recordControlApplied (a : Admission) (generation : ControlGeneration) :
    Except ProjectionError Unit × Admission := a.withPolicy (·.recordControlApplied generation)

def recordProcessed (a : Admission) (bytes : Nat) : Except ProjectionError Unit × Admission :=
  a.withPolicy (·.recordProcessed bytes)

/-- Queue exactly one exit marker behind already admitted output. -/
def recordProcessExit (a : Admission) : Bool × Admission :=
  match a.checkAccepting with
  | .error _ => (false, a)
  | .ok () =>
    if a.processExitQueued then (false, a)
    else (true, { a with processExitQueued := true, queue := a.queue ++ [.processExited] })

/-- Record the reader's final drain once, and report an existing failure. -/
def recordDrain (a : Admission) (outcome : DrainOutcome) : Option ProjectionError × Admission :=
  (a.status.failure, { a with outputDrain := a.outputDrain.or (some outcome) })

/-- The drain outcome, once every admitted mutation has been applied and nothing can
still extend the stream. -/
def settledDrain (a : Admission) (engineIdle : Bool) : Option DrainOutcome :=
  if engineIdle ∧ a.status.residency ≠ .restoring ∧ a.status.residency ≠ .usable ∧
      a.queue.all (fun command => !command.mutates && command != .processExited) ∧
      a.status.processed = a.status.published ∧ a.status.failure = none then a.outputDrain
  else none

/-- Fail the projection, retaining staged output only. Answers the commands to fail
and the drain fact known at that moment. -/
def fail (a : Admission) (error : ProjectionError) :
    (List Command × Option DrainOutcome) × Admission :=
  ((a.queue.filter (!·.isOutput), a.outputDrain),
    { a with policy := a.policy.fail error, queue := a.queue.filter (·.isOutput) })

/-- Request cleanup, registering a waiter for the durable outcome. -/
def requestClose (a : Admission) (waiter : Option TicketId) : CloseRequest × Admission :=
  if a.status.residency = .closed then (.alreadyClosed (settledOutcome a.cleanupFailure), a)
  else
    (.started a.queue, { a with
      policy := a.policy.close
      cleanupFailure := none
      retryCleanup := true
      closeWaiters := a.closeWaiters ++ waiter.toList
      queue := [] })

/-- The cleanup failure carried so far, and whether a retry was asked for. -/
def takeCleanupRetry (a : Admission) : (Option ProjectionError × Bool) × Admission :=
  ((a.cleanupFailure, a.retryCleanup), { a with retryCleanup := false })

/-- Close permanently. Answers the waiters and the outcome to settle them with. -/
def finishClose (a : Admission) (failed : Option ProjectionError) :
    (List TicketId × Option ProjectionError) × Admission :=
  let failed := failed.or a.unreclaimedFailure
  let policy :=
    match failed with
    | some error => a.policy.cleanupFailed error
    | none => a.policy
  ((a.closeWaiters, failed),
    { a with cleanupFailure := failed, policy := policy.markClosed, closeWaiters := [] })

/-- Abandon cleanup after both pools have joined. Answers the queued commands. -/
def abandonClose (a : Admission) : List Command × Admission :=
  (a.queue, { a with
    policy := a.policy.close, cleanupFailure := some .worker, queue := [] })

/-- Settle as failed after abandoning cleanup. Answers the waiters. -/
def abandonWaiters (a : Admission) : List TicketId × Admission :=
  (a.closeWaiters, { a with
    policy := (a.policy.cleanupFailed .worker).markClosed, closeWaiters := [] })

end Admission
end PtyRuntime
