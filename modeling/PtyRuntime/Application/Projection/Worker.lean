import PtyRuntime.Application.Projection.Io

/-! The scheduled worker and the owner's last-resort teardown. Each of the three
programs below holds the workspace lock, so a projection runs one at a time. -/
namespace PtyRuntime
open Thread

/-- What a run is for, once the terminal states are ruled out. -/
inductive Phase where
  | detached
  | restoring
  | serving
  deriving DecidableEq, Repr

def Phase.of (residency : Residency) (w : NativeWorkspace) : Phase :=
  if w.terminal.isNone then .detached
  else if residency = .usable then .restoring
  else .serving

/-- How many queued output chunks one run may feed before returning. -/
def outputBatch : Nat := 32

/-- How many queued output bytes one run may feed in total. -/
def outputBatchBytes : Nat := 256 * 1024

/-- An abandoned job gives its reservation back to the worker. -/
def StorageLog.abandon (s : StorageLog) : Option PendingIo → StorageLog
  | some (.commit _ disk _ _) => s.hold (.commit disk)
  | some (.delete attempt _) => s.hold (.delete attempt.source.disk)
  | _ => s

/-- The second look, which takes a marker for work like any other command. -/
def ExitLog.lookAgain (e : ExitLog) (queue : List Command) : ExitLog :=
  { e with
    looked := false
    restored :=
      if queue ≠ [] ∧ queue.all (· == .processExited) then e.restored + 1 else e.restored }

namespace Coordinator

/-- Whether a run that began at `residency` takes a command, output included, off the
head of the queue without checking for failure under the same lock. -/
def dequeues (c : Coordinator) (residency : Residency) : Bool :=
  match Phase.of residency c.workspace with
  | .detached => false
  | .restoring => !c.workspace.historyStepOwed && c.config.mutationDuringRestore
  | .serving => true

/-- The worker's re-read of the failure, which the trace remembers. -/
def checkFailure (residency : Residency) : Work (Option ProjectionError) :=
  lock fun c =>
    (c.admission.status.failure, { c with
      trace := { c.trace with
        poised := c.admission.status.failure.isNone && c.dequeues residency } })

/-- Take from the queue, into the worker's hand if it is output. -/
def takeCommand (take : Coordinator → Option Command × Admission) : Work (Option Command) :=
  lock fun c => ((take c).1, { c with
    admission := (take c).2
    trace := c.trace.take (take c).1
    order := c.order.take (take c).1 })

def workWhileFailed : Work WorkSchedule := do
  let due ← look fun c => c.workspace.io.isNone && c.workspace.reaper.holdsSources
  if due then startDelete else pure .dormant

/-- The worker's first look at the queue, for the exit marker at its head. Without a
live model or a job in flight the run will look again, for any work at all. -/
def takeMarker : Work (Option Command) :=
  lock fun c => ((c.admission.takeNextIf (· == .processExited)).1, { c with
    admission := (c.admission.takeNextIf (· == .processExited)).2
    exits := { c.exits with
      looked := c.workspace.terminal.isNone && c.workspace.io.isNone } })

/-- Exit is session state; consuming its ordered marker restores nothing. -/
def takeExit : Work Unit := do
  match ← takeMarker with
  | none => pure ()
  | some _ => applyExit

/-- Seal the continuation stream once every admitted mutation has been applied. -/
def sealJournalIfDrained : Work Unit := do
  let engineIdle ← look fun c => c.workspace.resize.isNone && c.workspace.reply.isNone
  match ← look (·.admission.settledDrain engineIdle) with
  | none => pure ()
  | some drain =>
    match ← finishProgramDrain with
    | .error error => fail error
    | .ok () => onJournal (·.finish (some drain) none)

/-- The worker's second look at the queue, for any work to read the source back for. -/
def takeWork : Work (Option (Option Command)) :=
  lock fun c => (c.admission.takeCheckpointIfAnyWork.1, { c with
    admission := c.admission.takeCheckpointIfAnyWork.2
    exits := c.exits.lookAgain c.admission.queue })

/-- No live model: the committed source has to be read back first. -/
def readBackSource : Work WorkSchedule := do
  let busy ← look (·.workspace.io.isSome)
  if busy then pure .dormant
  else do
    match ← takeWork with
    | none => pure .dormant
    | some transfer => startRead transfer

/-- What may run before history has been validated. -/
def allowedDuringRestore (c : Coordinator) : Command → Bool
  | .view _ => true
  | .output _ | .resize _ _ => c.config.mutationDuringRestore
  | .processExited | .checkpoint _ => false

/-- The command whose turn it is, unless a history step is owed first. -/
def takeDuringRestore : Work (Option Command) := do
  let owed ← look (·.workspace.historyStepOwed)
  if owed then pure none
  else takeCommand fun c => c.admission.takeNextIf c.allowedDuringRestore

def stepHistory : Work WorkSchedule := do
  let present ← look (·.workspace.terminal.isSome)
  if present then do
    let result ← nativeCall (·.stepped)
    onWorkspace fun w => { w with historyStepOwed := false }
    match result with
    | .ok progress => do
      historyProgress progress
      pure (.after 0)
    | .error error => do
      fail error
      pure (.after 0)
  else pure .dormant

/-- One admitted command then one history unit, strictly alternating. -/
def restoreStep : Work WorkSchedule := do
  match ← takeDuringRestore with
  | some command => do
    onWorkspace fun w => { w with historyStepOwed := true }
    applyCommand command
  | none => stepHistory

/-- Keep feeding queued output within the run. `left` counts the chunks the run may
still feed and `fed` the bytes it has fed. -/
def serveBatch : Nat → Nat → WorkSchedule → Work WorkSchedule
  | 0, _, schedule => pure schedule
  | left + 1, fed, schedule => do
    let quiet ← look fun c => c.workspace.reply.isNone && c.workspace.resize.isNone
    if fed < outputBatchBytes ∧ schedule = .after 0 ∧ quiet then do
      match ← takeCommand (·.admission.takeNextOutputWhileServing) with
      | none => pure schedule
      | some command => do
        let schedule ← applyCommand command
        serveBatch left (fed + (command.output?.getD []).length) schedule
    else pure schedule

/-- Apply the run's first command; only output is batched behind it. -/
def serveCommand (command : Command) : Work WorkSchedule := do
  let schedule ← applyCommand command
  match command with
  | .output bytes => serveBatch (outputBatch - 1) bytes.length schedule
  | _ => pure schedule

def considerPark : Work WorkSchedule := do
  let a ← input
  match ← look (·.admission.parkDelay a.now) with
  | none => pure .dormant
  | some delay => if delay = 0 then startPark else pure (.after delay)

/-- Without work: finish what is in flight, reap, and only then consider parking. -/
def serveIdle (maintenance : Option WorkSchedule) : Work WorkSchedule :=
  match maintenance with
  | some schedule => pure schedule
  | none => do
    let busy ← look (·.workspace.io.isSome)
    let holding ← look (·.workspace.reaper.holdsSources)
    if busy then pure .dormant
    else if holding then startDelete
    else considerPark

/-- Start a deletion when the slot is free and a source is held. -/
def maintain : Work (Option WorkSchedule) := do
  let due ← look fun c => c.workspace.io.isNone && c.workspace.reaper.holdsSources
  if due then do
    let schedule ← startDelete
    pure (some schedule)
  else pure none

/-- Normal service: admitted commands first, then maintenance, then parking. -/
def serve : Work WorkSchedule := do
  let maintenance ← maintain
  match ← takeCommand (·.admission.takeNext) with
  | some command => serveCommand command
  | none => serveIdle maintenance

def runPhase (residency : Residency) : Work WorkSchedule := do
  takeExit
  sealJournalIfDrained
  match ← look fun c => Phase.of residency c.workspace with
  | .detached => readBackSource
  | .restoring => restoreStep
  | .serving => serve

/-- Surrender what could not be deleted, or start deleting it. -/
def reapForClose (failed : Option ProjectionError) : Work (Option WorkSchedule) := do
  let holding ← look (·.workspace.reaper.holdsSources)
  if holding then
    match failed with
    | some _ => do
      update fun c => { c with
        unreclaimed := c.unreclaimed ++ c.workspace.reaper.surrender.1
        workspace := { c.workspace with reaper := c.workspace.reaper.surrender.2 }
        rounds := (c.rounds.surrender c.workspace.reaper.queue).act failed c.admission.retryCleanup }
      pure none
    | none => do
      let schedule ← startDelete
      pure (some schedule)
  else pure none

def completeWaiters : List TicketId → Option ProjectionError → Work Unit
  | [], _ => pure ()
  | waiter :: rest, failed => do
    completeTicket waiter ((settledOutcome failed).map fun _ => .cleaned)
    completeWaiters rest failed

def takeProcess : Work Unit :=
  update fun c => { c with wiring := { c.wiring with process := false } }

/-- Release the services and the scheduler registration. -/
def releaseWiring : Work Unit := do
  update fun c => { c with wiring := { c.wiring with services := false } }
  update fun c => { c with wiring := { c.wiring with handle := false } }

/-- Close permanently, under one acquisition of the admission lock. -/
def finishClose (failed : Option ProjectionError) : Work (List TicketId × Option ProjectionError) :=
  lock fun c => ((c.admission.finishClose failed).1, { c with
    admission := (c.admission.finishClose failed).2
    rounds := c.rounds.act failed c.admission.retryCleanup })

def finishCleanup (failed : Option ProjectionError) : Work WorkSchedule := do
  let settled ← finishClose failed
  takeProcess
  completeWaiters settled.1 settled.2
  releaseWiring
  pure .finished

def takeCleanupRetry : Work (Option ProjectionError × Bool) :=
  lock fun c => (c.admission.takeCleanupRetry.1, { c with
    admission := c.admission.takeCleanupRetry.2
    rounds := c.rounds.act c.admission.cleanupFailure c.admission.retryCleanup })

/-- An explicit close allows abandoned sources one more round of attempts. -/
def retryDeletions (retry : Bool) : Work Unit :=
  if retry then onWorkspace fun w => { w with reaper := w.reaper.restoreAttempts } else pure ()

def cleanupSources : Work WorkSchedule := do
  let busy ← look (·.workspace.io.isSome)
  if busy then pure .dormant
  else do
    retireRestored
    let pending ← takeCleanupRetry
    retryDeletions pending.2
    match ← reapForClose pending.1 with
    | some schedule => pure schedule
    | none => finishCleanup pending.1

def cleanup : Work WorkSchedule := do
  clearProgramStatus
  onWorkspace fun w => { w with terminal := none, reply := none }
  match ← closingResize with
  | some schedule => pure schedule
  | none => cleanupSources

/-- What a run does after it has ruled out the terminal states. -/
def runOpen (residency : Residency) : Work WorkSchedule := do
  match ← pollInflightOperations with
  | some schedule => pure schedule
  | none =>
    match ← checkFailure residency with
    | some _ => workWhileFailed
    | none => runPhase residency

def run : Work WorkSchedule := do
  let available ← services
  if available then do
    finishIo
    let seen ← status
    if seen.residency.isClosing then cleanup
    else if seen.residency = .failed then workWhileFailed
    else runOpen seen.residency
  else pure .finished

/-- Drop the reply and the resize wait of a run that panicked. -/
def discardOperations : Work Unit := do
  onWorkspace fun w => { w with reply := none }
  match ← look (·.workspace.resize) with
  | none => pure ()
  | some resize => do
    onWorkspace fun w => { w with resize := none }
    completeTicket resize.ticket (.error .worker)

/-- The scheduler's report that a run panicked. -/
def failed : Work WorkSchedule := do
  fail .worker
  discardOperations
  let seen ← status
  match seen.residency with
  | .closing => pure (.after 0)
  | .closed => pure .finished
  | _ => pure .dormant

/-- Account for an abandoned job without a provider call. -/
def abandonIo : Work Unit := do
  let pending ← lock fun c =>
    (c.workspace.io, { c with
      workspace := { c.workspace with io := none }, storage := c.storage.abandon c.workspace.io })
  match pending with
  | some (.commit attempt disk _ _) => recordUnreclaimed (.fromUncertainPark · attempt disk)
  | some (.delete attempt _) => recordUnreclaimed fun _ => .ofCommitted attempt.source
  | some (.transfer request _ _) => failRequest request .worker
  | some (.restore _ _) | none => pure ()

def abandonSources : Work Unit := do
  retireRestored
  update fun c => { c with
    unreclaimed := c.unreclaimed ++ c.workspace.reaper.surrender.1
    workspace := { c.workspace with reaper := c.workspace.reaper.surrender.2 } }
  discardOperations
  onWorkspace fun w => { w with terminal := none }

def abandonClose : Work (List Command) :=
  lock fun c => (c.admission.abandonClose.1, { c with
    admission := c.admission.abandonClose.2, rounds := { c.rounds with abandoned := true } })

/-- Last-resort cleanup after both pools have joined, never concurrent with a run. -/
def finishAfterShutdown : Work Unit := do
  let seen ← status
  if seen.residency = .closed then pure ()
  else do
    clearProgramStatus
    onJournal (·.close)
    let rejected ← abandonClose
    failCommands rejected .worker
    finishIo
    abandonIo
    abandonSources
    let waiters ← locked (·.abandonWaiters)
    completeWaiters waiters (some .worker)
    takeProcess
    releaseWiring

end Coordinator
end PtyRuntime
