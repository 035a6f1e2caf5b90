import PtyRuntime.Application.Projection.Worker

/-! What runs beside the worker: admissions, notifications and close requests of
other threads, waits and observers, and the jobs of the blocking pool. -/
namespace PtyRuntime
open Thread

namespace Trace

/-- A chunk was queued. -/
def queued (t : Trace) (bytes : Bytes) : Trace :=
  { t with admitted := t.admitted ++ [bytes], since := t.since + 1 }

end Trace

/-- An output or a resize was queued. -/
def OrderLog.admit (o : OrderLog) (command : Command) : OrderLog :=
  { o with admitted := o.admitted ++ [command] }

/-- The marker was queued behind what had been admitted, onto this queue. -/
def ExitLog.queue (e : ExitLog) (admitted : List Bytes) (queue : List Command) : ExitLog :=
  { e with
    queuedBehind := some admitted
    raced := e.raced || e.looked && queue.isEmpty }

/-- A close request that is taken up starts a new round of deletions. -/
def RoundLog.close (r : RoundLog) : CloseRequest → RoundLog
  | .alreadyClosed _ => r
  | .started _ => { r with fresh := false, failed := [], surrendered := none }

/-- What the runtime's other projections do with the storage budget they share. -/
inductive DiskUse where
  | acquire (bytes : Nat)
  | release (index : Nat)
  | surrender (index : Nat) (reference : Option CheckpointRef) (key : CheckpointKey)
      (descriptor : CheckpointDescriptor)

namespace Coordinator

/-- What the admission lock decides about a reader chunk. -/
def acceptOutput (c : Coordinator) (bytes : Bytes) (slot allocated : Bool) (now : Nat)
    (a : Admission) : OutputAdmission × Admission :=
  if a.closing then (.rejected .closed, a)
  else if a.outputDrain.isSome then (.rejected .closed, a)
  else if bytes = [] then (.nothing, a)
  else if bytes.length > c.config.options.terminal.feedBytes then (.rejected .backpressure, a)
  else if !slot || !c.wiring.services then (.rejected .backpressure, a)
  else if !allocated then (.rejected .backpressure, a)
  else
    match a.admitOutputBytes bytes.length now with
    | (.error _, a) => (.rejected .closed, a)
    | (.ok (), a) => (.queue (.output bytes), a)

/-- The chunk is queued, empty, or rejected; the trace remembers a queued one. -/
def offerOutput (c : Coordinator) (bytes : Bytes) (answer : Answer) : OutputOutcome × Coordinator :=
  match c.admission.admitOutput (c.acceptOutput bytes answer.granted answer.allocated answer.now) with
  | (.queued, admission) =>
    (.queued, { c with
      admission, trace := c.trace.queued bytes, order := c.order.admit (.output bytes) })
  | (outcome, admission) => (outcome, { c with admission })

/-- One acquisition of the admission lock by the reader. -/
def admitOutput (bytes : Bytes) (answer : Answer) : Work OutputOutcome :=
  lock (·.offerOutput bytes answer)

/-- A scheduler that refuses the wake fails the projection. -/
def wakeOrFail : Work Unit := do
  match ← wake with
  | .error error => fail error
  | .ok () => pure ()

/-- Admit an entire reader chunk once. Accepted staging is never rolled back. -/
def stageOutput (bytes : Bytes) : Work OutputAcceptance := do
  let available ← services
  if available then do
    let a ← input
    update fun c => { c with stallGeneration := a.generation }
    match ← admitOutput bytes a with
    | .rejected acceptance => pure acceptance
    | .accepted => pure .accepted
    | .queued => do
      wakeOrFail
      pure .accepted
  else pure .closed

/-- A wait and its ticket, if a request slot is granted. -/
def reserveRequestSlot : Work (Option TicketId) := do
  let a ← input
  if a.granted then
    lock fun c => (some c.tickets.length, { c with tickets := c.tickets ++ [{}] })
  else pure none

/-- Admit one command into the ordered queue and wake the worker. -/
def admitAndWake (build : Admission → Except ProjectionError Command × Admission) :
    Work (Except ProjectionError Unit) := do
  match ← locked (·.admitCommand build) with
  | .error e => pure (.error e)
  | .ok () => do
    wakeOrFail
    pure (.ok ())

/-- A resize records activity before it is queued. -/
def admitResize (size : TerminalSize) (ticket : TicketId) (now : Nat) :
    Work (Except ProjectionError Unit) :=
  lock fun c =>
    match c.admission.admitCommand fun a =>
      if a.outputDrain.isSome then (.error .closed, a)
      else
        match a.recordActivity now with
        | (.error e, a) => (.error e, a)
        | (.ok (), a) => (.ok (.resize size ticket), a) with
    | (.error e, admission) => (.error e, { c with admission })
    | (.ok (), admission) =>
      (.ok (), { c with
        admission
        trace := { c.trace with since := c.trace.since + 1 }
        order := c.order.admit (.resize size ticket) })

def resize (size : TerminalSize) : Work (Except ProjectionError TicketId) := do
  let available ← services
  if available then do
    match ← reserveRequestSlot with
    | none => pure (.error .capacity)
    | some ticket => do
      let staged ← services
      if staged then do
        let a ← input
        match ← admitResize size ticket a.now with
        | .error e => pure (.error e)
        | .ok () => do
          wakeOrFail
          pure (.ok ticket)
      else pure (.error .closed)
  else pure (.error .closed)

/-- A request without a payload: its staging lease only needs the services. -/
def request (command : TicketId → Command) : Work (Except ProjectionError TicketId) := do
  match ← reserveRequestSlot with
  | none => pure (.error .capacity)
  | some ticket => do
    let available ← services
    if available then do
      match ← admitAndWake fun a => (.ok (command ticket), a) with
      | .error e => pure (.error e)
      | .ok () => pure (.ok ticket)
    else pure (.error .closed)

def view : Work (Except ProjectionError TicketId) := request .view

def checkpoint : Work (Except ProjectionError TicketId) :=
  request fun ticket => .checkpoint (.checkpoint ticket)

/-- A transfer first reserves its place among the journal's observers. -/
def beginTransfer : Work (Except ProjectionError TicketId) := do
  let permit ← input
  if permit.granted then request fun ticket => .checkpoint (.transfer ticket)
  else pure (.error .capacity)

/-- Queue the exit marker, once. -/
def recordExit : Work Bool :=
  lock fun c =>
    match c.admission.recordProcessExit with
    | (false, admission) => (false, { c with admission })
    | (true, admission) =>
      (true, { c with
        admission, exits := c.exits.queue c.trace.admitted c.admission.queue })

/-- Order process exit behind admitted output. -/
def notifyProcessExited : Work Unit := do
  let queued ← recordExit
  if queued then wakeOrFail else pure ()

/-- A refused wake after cleanup has finished is no failure. -/
def failUnlessClosed : Except ProjectionError Unit → Work Unit
  | .ok () => pure ()
  | .error _ => do
    let seen ← status
    if seen.residency = .closed then pure () else fail .worker

/-- A drain reported after the projection failed ends the continuation stream. -/
def endFailed (outcome : DrainOutcome) : Option ProjectionError → Work Unit
  | none => pure ()
  | some error => onJournal (·.finish (some outcome) (some error))

def notifyOutputDrained (outcome : DrainOutcome) : Work Unit := do
  let failure ← locked (·.recordDrain outcome)
  endFailed outcome failure
  let woken ← wake
  failUnlessClosed woken

/-- Complete or reject what a close request found. -/
def applyClose (ticket : Option TicketId) : CloseRequest → Work (Except ProjectionError Unit)
  | .alreadyClosed outcome =>
    match ticket with
    | none => pure (.ok ())
    | some ticket => do
      completeTicket ticket (outcome.map fun _ => .cleaned)
      pure (.ok ())
  | .started rejected => do
    onJournal (·.close)
    failCommands rejected .closed
    match ← wake with
    | .ok () => pure (.ok ())
    | .error error => do
      let outcome ← look (·.admission.closeOutcome)
      pure (if outcome.isNone then .error error else .ok ())

/-- Request cleanup, under one acquisition of the admission lock. -/
def requestClose (waiter : Option TicketId) : Work CloseRequest :=
  lock fun c => ((c.admission.requestClose waiter).1, { c with
    admission := (c.admission.requestClose waiter).2
    rounds := c.rounds.close (c.admission.requestClose waiter).1 })

/-- Invalidate pending publication and schedule source cleanup. Closure is requested
even when no slot is left to wait for it. -/
def close : Work (Except ProjectionError TicketId) := do
  let ticket ← reserveRequestSlot
  let answer ← requestClose ticket
  match ← applyClose ticket answer, ticket with
  | .error e, _ => pure (.error e)
  | .ok (), none => pure (.error .capacity)
  | .ok (), some ticket => pure (.ok ticket)

/-- Bind the process once; a closure that raced the bind undoes it. -/
def bindProcess : Work (Except ProjectionError Unit) := do
  let before ← status
  if before.residency.isClosing then pure (.error .closed)
  else do
    let bound ← lock fun c =>
      if c.wiring.process then (false, c)
      else (true, { c with wiring := { c.wiring with process := true } })
    if bound then do
      let after ← status
      if after.residency.isClosing then do
        update fun c => { c with wiring := { c.wiring with process := false } }
        pure (.error .closed)
      else do
        match ← wake with
        | .ok () => pure (.ok ())
        | .error error => do
          fail error
          pure (.error error)
    else pure (.error .invalidConfiguration)

/-- Poll a wait: its result is delivered at most once. -/
def pollWait (ticket : TicketId) : Work (Option (Except ProjectionError TicketValue)) :=
  lock fun c =>
    match c.tickets[ticket]? with
    | none => (none, c)
    | some t =>
      match t.result with
      | some result =>
        (some result, { c with tickets := c.tickets.modify ticket ({ · with result := none }) })
      | none => (if t.complete then some (.error .closed) else none, c)

/-- Dropping a wait cancels observation and discards a result it never took. -/
def dropWait (ticket : TicketId) : Work Unit := do
  update fun c => { c with tickets := c.tickets.modify ticket ({ · with cancelled := true }) }
  update fun c => { c with tickets := c.tickets.modify ticket ({ · with result := none }) }

def readObserver (observer : TransferObserver) (cursor : TransferCursor) (waker : Option Waker) :
    Work (Except TransferError TransferRead) :=
  lock fun c =>
    ((c.journal.read observer.id observer.start.cursor cursor waker).1,
      { c with journal := (c.journal.read observer.id observer.start.cursor cursor waker).2 })

def cancelObserver (observer : TransferObserver) : Work Unit :=
  update fun c => { c with journal := c.journal.cancelWait observer.id }

def dropObserver (observer : TransferObserver) : Work Unit :=
  update fun c => { c with journal := c.journal.remove observer.id }

def publishJob (a : Answer) : Work Unit :=
  update fun c => { c with
    workspace := { c.workspace with
      io := c.workspace.io.map (·.publish c.config c.workspace.config.checkpointBytes a) }
    storage := c.workspace.io.elim c.storage (c.storage.publish c.config a) }

/-- The blocking pool completes the job in flight. -/
def runJob : Work Unit := do
  let a ← input
  publishJob a

/-- Another projection takes a lease, drops one it holds, or surrenders it to the
runtime's ledger. -/
def useDisk (c : Coordinator) : DiskUse → Coordinator
  | .acquire bytes =>
    match c.disk.storedSlots.acquire 1, c.disk.stored.acquire bytes with
    | (true, storedSlots), (true, stored) =>
      { c with
        disk := { stored, storedSlots, elsewhere := c.disk.elsewhere ++ [{ id := c.storage.granted, bytes }] }
        storage := { c.storage with granted := c.storage.granted + 1 } }
    | _, _ => c
  | .release index =>
    match c.disk.elsewhere[index]? with
    | none => c
    | some disk =>
      { c with disk := {
          stored := c.disk.stored.release disk.bytes
          storedSlots := c.disk.storedSlots.release 1
          elsewhere := c.disk.elsewhere.eraseIdx index } }
  | .surrender index reference key descriptor =>
    match c.disk.elsewhere[index]? with
    | none => c
    | some disk =>
      { c with
        disk := { c.disk with elsewhere := c.disk.elsewhere.eraseIdx index }
        unreclaimed := c.unreclaimed ++ [{ reference, key, descriptor, disk }] }

def shareDisk (use : DiskUse) : Work Unit := update (·.useDisk use)

/-- Everything another thread can ask of a projection. -/
inductive Call where
  | stageOutput (bytes : Bytes)
  | resize (size : TerminalSize)
  | view
  | checkpoint
  | beginTransfer
  | notifyProcessExited
  | notifyOutputDrained (outcome : DrainOutcome)
  | close
  | bindProcess
  | pollWait (ticket : TicketId)
  | dropWait (ticket : TicketId)
  | readObserver (observer : TransferObserver) (cursor : TransferCursor) (waker : Option Waker)
  | cancelObserver (observer : TransferObserver)
  | dropObserver (observer : TransferObserver)
  | runJob
  | shareDisk (use : DiskUse)

/-- Run a thread for its effects. -/
def discard {α : Type} (thread : Work α) : Work Unit := do
  let _ ← thread
  pure ()

def Call.thread : Call → Work Unit
  | .stageOutput bytes => discard (Coordinator.stageOutput bytes)
  | .resize size => discard (Coordinator.resize size)
  | .view => discard Coordinator.view
  | .checkpoint => discard Coordinator.checkpoint
  | .beginTransfer => discard Coordinator.beginTransfer
  | .notifyProcessExited => Coordinator.notifyProcessExited
  | .notifyOutputDrained outcome => Coordinator.notifyOutputDrained outcome
  | .close => discard Coordinator.close
  | .bindProcess => discard Coordinator.bindProcess
  | .pollWait ticket => discard (Coordinator.pollWait ticket)
  | .dropWait ticket => Coordinator.dropWait ticket
  | .readObserver observer cursor waker => discard (Coordinator.readObserver observer cursor waker)
  | .cancelObserver observer => Coordinator.cancelObserver observer
  | .dropObserver observer => Coordinator.dropObserver observer
  | .runJob => Coordinator.runJob
  | .shareDisk use => Coordinator.shareDisk use

/-- The programs that take the workspace lock. -/
inductive Owner where
  | run
  | failed
  | finishAfterShutdown

def Owner.thread : Owner → Work Unit
  | .run => discard Coordinator.run
  | .failed => discard Coordinator.failed
  | .finishAfterShutdown => Coordinator.finishAfterShutdown

end Coordinator
end PtyRuntime
