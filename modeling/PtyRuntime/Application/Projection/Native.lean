import PtyRuntime.Application.Projection.Queue

/-! Driving the native model: feeding output, applying commands and polling the
reply and resize in flight. Every lock acquisition is one step of the thread. The
capacity signal, wakers and timings are left out. -/
namespace PtyRuntime
open Thread

/-- How long to wait before retrying what a pool or a quota refused. -/
def retrySoon : Nat := 5000000

namespace Trace

/-- A dequeued chunk is in the worker's hand. -/
def take (t : Trace) : Option Command → Trace
  | some (.output bytes) => { t with hand := some bytes, poised := false }
  | _ => { t with poised := false }

/-- A chunk that goes back to the queue, or is dropped, leaves the hand. -/
def release (t : Trace) (command : Command) : Trace :=
  if command.isOutput then { t with hand := none } else t

def apply (t : Trace) (bytes : Bytes) : Trace :=
  { t with applied := t.applied ++ [bytes], hand := none }

end Trace

namespace OrderLog

/-- A dequeued output or resize is in the worker's hand. -/
def take (o : OrderLog) : Option Command → OrderLog
  | none => o
  | some command => if command.mutates then { o with current := some command } else o

/-- A command that goes back to the queue, or is dropped, leaves the hand. -/
def release (o : OrderLog) (command : Command) : OrderLog :=
  if command.mutates then { o with current := none } else o

def give (o : OrderLog) (inputs : List ModelInput) : OrderLog :=
  { o with given := o.given ++ inputs }

def settle (o : OrderLog) (command : Settled) : OrderLog :=
  { o with settled := o.settled ++ [command], current := none }

def refuse (o : OrderLog) : OrderLog := { o with refused := o.refused + 1 }

end OrderLog

namespace ExitLog

/-- The marker is applied once these chunks have been processed. -/
def apply (e : ExitLog) (processed : List Bytes) : ExitLog :=
  { e with appliedAfter := e.appliedAfter ++ [processed] }

end ExitLog

namespace Ticket

/-- The first completion wins; a cancelled wait retains no result. -/
def settle (t : Ticket) (result : Except ProjectionError TicketValue) : Ticket :=
  if t.complete then t
  else { t with complete := true, result := if t.cancelled then t.result else some result }

end Ticket

namespace Coordinator

/-- One acquisition of the admission lock. -/
def locked {α : Type} (f : Admission → α × Admission) : Work α :=
  lock fun c => ((f c.admission).1, { c with admission := (f c.admission).2 })

/-- One update of the workspace, under the lock the worker holds. -/
def onWorkspace (f : NativeWorkspace → NativeWorkspace) : Work Unit :=
  update fun c => { c with workspace := f c.workspace }

def onJournal (f : Journal → List Waker × Journal) : Work Unit :=
  update fun c => { c with journal := (f c.journal).2 }

def status : Work ProjectionStatus := look (·.admission.status)

def services : Work Bool := look (·.wiring.services)

def completeTicket (ticket : TicketId) (result : Except ProjectionError TicketValue) : Work Unit :=
  update fun c => { c with tickets := c.tickets.modify ticket (·.settle result) }

def ticketCancelled (ticket : TicketId) : Work Bool :=
  look fun c => c.tickets[ticket]?.any (·.cancelled)

def failRequest (request : SnapshotRequest) (error : ProjectionError) : Work Unit :=
  match request with
  | .checkpoint ticket | .transfer ticket => completeTicket ticket (.error error)

def failCommand (command : Command) (error : ProjectionError) : Work Unit :=
  match command with
  | .resize _ ticket | .view ticket => completeTicket ticket (.error error)
  | .checkpoint request => failRequest request error
  | .output _ | .processExited => pure ()

def failCommands : List Command → ProjectionError → Work Unit
  | [], _ => pure ()
  | command :: rest, error => do
    failCommand command error
    failCommands rest error

/-- Fail the projection. Parser bytes stay staged; every other admitted command is
released. -/
def fail (error : ProjectionError) : Work Unit := do
  let answer ← locked (·.fail error)
  onJournal (·.finish answer.2 (some error))
  failCommands answer.1 error

/-- An engine call; a panic inside it fails the projection. -/
def nativeCall {α : Type} (answer : Answer → Option (Except TerminalError α)) :
    Work (Except ProjectionError α) := do
  let a ← input
  match answer a with
  | some (.ok value) => pure (.ok value)
  | some (.error error) => pure (.error (.terminal error))
  | none => do
    fail .worker
    pure (.error .worker)

def wake : Work (Except ProjectionError Unit) := do
  let registered ← look (·.wiring.handle)
  if registered then do
    let a ← input
    pure (if a.woken then .ok () else .error .worker)
  else pure (.error .worker)

/-- Put a command back at the head, or fail it if the projection is closing. -/
def requeue (command : Command) : Work Unit := do
  let refused ← lock fun c =>
    ((c.admission.requeue command).1,
      { c with
        admission := (c.admission.requeue command).2
        trace := c.trace.release command
        order := c.order.release command })
  match refused with
  | some command => failCommand command .closed
  | none => pure ()

def descriptor : Work CheckpointDescriptor :=
  look fun c => {
    compatibility := c.config.compatibility
    processed := c.admission.status.processed
    controlGeneration := c.admission.status.controlGeneration }

inductive StatusAdmissionError where
  | retry
  | failed (error : ProjectionError)

structure PreparedStatus where
  plan : ProgramStatusPlan
  recordMemory : Bool

/-- Scan a chunk after admitting what the scan, the records and the reply may take.
The three leases are granted by shared quotas; `planBytes` is what the plan's
buffers were given by the allocator. -/
def prepareStatus (config : ProjectionConfig) (s : ProgramStatusState) (bytes : Bytes)
    (replyLimit : Nat) (scanLease recordLease replyLease : Bool) (planBytes : Nat) :
    Except StatusAdmissionError PreparedStatus :=
  match s.store with
  | none => .error (.failed .closed)
  | some store =>
    match store.scanReservationFor config.mutationSize bytes with
    | .error _ => .error (.failed .capacity)
    | .ok scratch =>
      let records := store.recordReservation config.recordSize
      let owned := if s.memory then records else 0
      if owned + scratch + replyLimit > config.viewLimit then .error (.failed .capacity)
      else if !scanLease then .error .retry
      else
        match store.scan bytes with
        | .error _ => .error (.failed .capacity)
        | .ok plan =>
          let replies := if plan.queries = [] then replyLimit else replyLimit * 2
          let recordMemory := !s.memory && decide (planBytes > 0)
          let growth := if recordMemory then records else 0
          if owned + scratch + replies + growth > config.viewLimit then .error (.failed .capacity)
          else if recordMemory && !recordLease then .error .retry
          else if !replyLease then .error .retry
          else .ok { plan, recordMemory }

def commitStatus (prepared : PreparedStatus) : Work (Except ProjectionError Unit) :=
  lock fun c =>
    match c.programStatus.store with
    | none => (.error .closed, c)
    | some store =>
      match store.commit prepared.plan with
      | (.error _, store) =>
        (.error .worker, { c with programStatus := { c.programStatus with store := some store } })
      | (.ok (), store) =>
        (.ok (), { c with
          programStatus := { c.programStatus with
            store := some store
            memory := c.programStatus.memory || prepared.recordMemory } })

/-- Drop working and blocked records; both the exit marker and the final drain do. -/
def exitStore (s : ProgramStatusState) : Except ProjectionError Unit × ProgramStatusState :=
  match s.store with
  | none => (.error .closed, s)
  | some store =>
    match store.processExited with
    | (.error _, store) => (.error .capacity, { s with store := some store })
    | (.ok (), store) => (.ok (), { s with store := some store })

def applyProgramExit : Work (Except ProjectionError Unit) :=
  lock fun c =>
    match exitStore c.programStatus with
    | (.error e, s) =>
      (.error e, { c with programStatus := s, exits := c.exits.apply c.trace.applied })
    | (.ok (), s) =>
      (.ok (), { c with
        programStatus := { s with exited := true }, exits := c.exits.apply c.trace.applied })

def finishProgramDrain : Work (Except ProjectionError Unit) :=
  lock fun c =>
    if c.programStatus.exited ∧ ¬c.programStatus.drained then
      match exitStore c.programStatus with
      | (.error e, s) => (.error e, { c with programStatus := s })
      | (.ok (), s) =>
        (.ok (), { c with
          programStatus := { s with drained := true }, exits := { c.exits with settled := true } })
    else (.ok (), { c with exits := { c.exits with settled := true } })

def clearProgramStatus : Work Unit :=
  update fun c => { c with programStatus := { c.programStatus with store := none, memory := false } }

def feed (bytes : Bytes) : Work (Except ProjectionError Bytes) := do
  update fun c => { c with
    trace := { c.trace with fed := c.trace.fed ++ bytes }
    order := c.order.give (bytes.map .byte) }
  nativeCall (·.fed)

/-- `ReplyBytes::append`. -/
def appendReply (aggregate bytes : Bytes) (limit : Nat) : Except ProjectionError Bytes :=
  if bytes.length > limit - aggregate.length then .error .capacity else .ok (aggregate ++ bytes)

def feedStatusSlice (bytes aggregate : Bytes) (limit : Nat) : Work (Except ProjectionError Bytes) := do
  match ← feed bytes with
  | .error e => pure (.error e)
  | .ok effects => pure (appendReply aggregate effects limit)

/-- Feed up to each query and answer it there, then feed what is left. -/
def feedQueries (bytes : Bytes) (limit start : Nat) (aggregate : Bytes) :
    List Nat → Work (Except ProjectionError Bytes)
  | [] =>
    if start < bytes.length then feedStatusSlice (bytes.drop start) aggregate limit
    else pure (.ok aggregate)
  | stop :: rest => do
    match ← feedStatusSlice ((bytes.take stop).drop start) aggregate limit with
    | .error e => pure (.error e)
    | .ok aggregate =>
      match appendReply aggregate programStatusReply limit with
      | .error e => pure (.error e)
      | .ok aggregate => feedQueries bytes limit stop aggregate rest

def feedStatusSlices (bytes : Bytes) (queries : List Nat) (limit : Nat) :
    Work (Except ProjectionError Bytes) :=
  if queries = [] then do
    match ← feed bytes with
    | .error e => pure (.error e)
    | .ok effects => pure (if effects.length > limit then .error .capacity else .ok effects)
  else feedQueries bytes limit 0 [] queries

/-- Advance the processed position after a successful native feed. -/
def recordProcessed (bytes : Bytes) : Work (Except ProjectionError Unit) :=
  lock fun c =>
    match c.admission.recordProcessed bytes.length with
    | (.error e, admission) => (.error e, { c with admission })
    | (.ok (), admission) =>
      (.ok (), { c with
        admission, trace := c.trace.apply bytes, order := c.order.settle (.output bytes) })

def commitOutput (prepared : PreparedStatus) (bytes : Bytes) : Work (Except ProjectionError Unit) := do
  match ← commitStatus prepared with
  | .error e => pure (.error e)
  | .ok () => recordProcessed bytes

/-- A feed or commit failure may have consumed any prefix. The original bytes stay
queued for diagnosis and the projection fails, so that prefix is never retried. -/
def abandonOutput (bytes : Bytes) (error : ProjectionError) : Work WorkSchedule := do
  requeue (.output bytes)
  fail error
  pure .dormant

/-- Journal an applied chunk and keep the reply it caused. -/
def publishOutput (bytes effects : Bytes) : Work WorkSchedule := do
  let applied ← status
  let a ← input
  onJournal (·.output a.leases bytes applied.processed)
  if effects = [] then pure (.after 0)
  else do
    onWorkspace fun w => { w with reply := some { bytes := effects, operation := false } }
    pure (.after 0)

def feedPresent (bytes : Bytes) (queries : List Nat) (limit : Nat) :
    Work (Except ProjectionError Bytes) := do
  let present ← look (·.workspace.terminal.isSome)
  if present then feedStatusSlices bytes queries limit else pure (.error .closed)

def applyPrepared (bytes : Bytes) (limit : Nat) (prepared : PreparedStatus) : Work WorkSchedule := do
  match ← feedPresent bytes prepared.plan.queries limit with
  | .error error => abandonOutput bytes error
  | .ok effects =>
    match ← commitOutput prepared bytes with
    | .error error => abandonOutput bytes error
    | .ok () => publishOutput bytes effects

def applyOutput (bytes : Bytes) : Work WorkSchedule := do
  let limit ← look (·.workspace.config.replyBytes)
  let scan ← input
  let record ← input
  let reply ← input
  let prepared ← look fun c => prepareStatus c.config c.programStatus bytes limit scan.granted
    record.granted reply.granted scan.planBytes
  match prepared with
  | .error .retry => do
    requeue (.output bytes)
    pure (.after retrySoon)
  | .error (.failed error) => abandonOutput bytes error
  | .ok prepared => applyPrepared bytes limit prepared

def requestCancelled : SnapshotRequest → Work Bool
  | .checkpoint ticket | .transfer ticket => ticketCancelled ticket

/-- Pair the checkpoint with an observer opened at the same boundary. -/
def openTransfer (ticket : TicketId) (checkpoint : TerminalCheckpoint) : Work Unit := do
  let opened ← lock fun c => ((c.journal.openObserver).1, { c with journal := c.journal.openObserver.2 })
  match opened with
  | .error e => completeTicket ticket (.error e)
  | .ok observer =>
    if observer.start.processed ≠ checkpoint.descriptor.processed ∨
        observer.start.controlGeneration ≠ checkpoint.descriptor.controlGeneration then do
      update fun c => { c with journal := c.journal.remove observer.id }
      completeTicket ticket (.error .invalidConfiguration)
    else completeTicket ticket (.ok (.transferred { checkpoint, observer }))

def completeRequest (request : SnapshotRequest)
    (result : Except ProjectionError TerminalCheckpoint) : Work Unit :=
  match request with
  | .checkpoint ticket => completeTicket ticket (result.map .pinned)
  | .transfer ticket => do
    let cancelled ← ticketCancelled ticket
    if cancelled then pure ()
    else
      match result with
      | .error e => completeTicket ticket (.error e)
      | .ok checkpoint => openTransfer ticket checkpoint

/-- Encode the live model at `descriptor` and check what the engine returned. -/
def encode (descriptor : CheckpointDescriptor) : Work (Except ProjectionError TerminalCheckpoint) := do
  let present ← look (·.workspace.terminal.isSome)
  if present then do
    match ← nativeCall (·.encoded) with
    | .error e => pure (.error e)
    | .ok checkpoint =>
      look fun c =>
        if checkpoint.descriptor ≠ descriptor then .error .invalidConfiguration
        else if checkpoint.capacity > c.workspace.config.checkpointBytes then .error .capacity
        else .ok checkpoint
  else pure (.error .closed)

def snapshotResult : Work (Except ProjectionError TerminalCheckpoint) := do
  let lease ← input
  if lease.granted then do
    let descriptor ← descriptor
    encode descriptor
  else pure (.error .capacity)

def snapshot (request : SnapshotRequest) : Work Unit := do
  let cancelled ← requestCancelled request
  if cancelled then pure ()
  else do
    let result ← snapshotResult
    let now ← status
    if now.residency.isClosing then failRequest request .closed else completeRequest request result

def copyView : Work (Except ProjectionError ProjectedView) := do
  let present ← look (·.workspace.terminal.isSome)
  if present then do
    match ← nativeCall (·.viewed) with
    | .error e => pure (.error e)
    | .ok view =>
      match ← nativeCall fun a => a.progress.map .ok with
      | .error e => pure (.error e)
      | .ok history => do
        let status ← status
        pure (.ok {
          view
          processed := status.processed
          controlGeneration := status.controlGeneration
          history })
  else pure (.error .closed)

/-- The view at the workspace's own dimensions, once its reservation is granted. -/
def viewResult : Work (Except ProjectionError ProjectedView) := do
  let lease ← input
  let reservation ← look fun c =>
    ({ c.config.options with terminal := c.workspace.config } : ProjectionOptions).viewReservation
      c.config.cellSize
  match reservation with
  | .error e => pure (.error e)
  | .ok _ => if lease.granted then copyView else pure (.error .capacity)

def applyView (ticket : TicketId) : Work Unit := do
  let cancelled ← ticketCancelled ticket
  if cancelled then pure ()
  else do
    let result ← viewResult
    let now ← status
    completeTicket ticket
      (if now.residency.isClosing then .error .closed else result.map .viewed)

def applyExit : Work Unit := do
  match ← applyProgramExit with
  | .error error => fail error
  | .ok () => pure ()

/-- Start the OS half of a resize at the next control generation. -/
def startResize (size : TerminalSize) (ticket : TicketId) (generation : ControlGeneration) :
    Work WorkSchedule := do
  let a ← input
  match a.resizing with
  | .ok () => do
    onWorkspace fun w => { w with resize := some { size, generation, ticket } }
    pure (.after 0)
  | .error error => do
    completeTicket ticket (.ok (.resized {
      generation, os := .error error, model := .error (.process error) }))
    update fun c => { c with
      order := c.order.settle (.resize size ticket generation (.error error) (.error (.process error))) }
    pure (.after 0)

def applyResize (size : TerminalSize) (ticket : TicketId) : Work WorkSchedule := do
  let bound ← look (·.wiring.process)
  if bound then do
    let status ← status
    match status.controlGeneration.next with
    | none => do
      completeTicket ticket (.error .capacity)
      fail .capacity
      pure .dormant
    | some generation => startResize size ticket generation
  else do
    requeue (.resize size ticket)
    pure .dormant

def applyCommand : Command → Work WorkSchedule
  | .output bytes => applyOutput bytes
  | .processExited => do
    applyExit
    pure (.after 0)
  | .resize size ticket => applyResize size ticket
  | .view ticket => do
    applyView ticket
    pure (.after 0)
  | .checkpoint request => do
    snapshot request
    pure (.after 0)

/-- A reply that was not written whole fails the projection. -/
def checkWritten (reply : Reply) (outcome : WriteOutcome) : Work Unit :=
  if outcome.error.isSome ∨ outcome.written ≠ reply.bytes.length then
    fail (.process (outcome.error.getD .io))
  else pure ()

/-- Poll the submitted write of a reply. -/
def pollReply (reply : Reply) : Work (Option WorkSchedule) := do
  let a ← input
  match a.written with
  | none => pure (some .dormant)
  | some outcome => do
    checkWritten reply outcome
    onWorkspace fun w => { w with reply := none }
    pure none

/-- Submit a reply that waits for the process or for input capacity. -/
def submitReply (reply : Reply) : Work (Option WorkSchedule) := do
  let bound ← look (·.wiring.process)
  if bound then do
    let a ← input
    if a.granted then
      match a.writing with
      | .ok () => do
        onWorkspace fun w => { w with reply := some { reply with operation := true } }
        pollReply reply
      | .error .capacity => pure (some (.after retrySoon))
      | .error error => do
        fail (.process error)
        onWorkspace fun w => { w with reply := none }
        pure (some .dormant)
    else pure (some (.after retrySoon))
  else pure (some .dormant)

def pollReplySlot : Work (Option WorkSchedule) := do
  match ← look (·.workspace.reply) with
  | none => pure none
  | some reply => if reply.operation then pollReply reply else submitReply reply

/-- The model half of a resize whose OS half has answered. -/
def resizeModel (resize : Resizing) (os : Except ProcessError Unit) :
    Work (Except ProjectionError Unit) :=
  match os with
  | .error error => pure (.error (.process error))
  | .ok () => do
    let present ← look (·.workspace.terminal.isSome)
    if present then do
      update fun c => { c with order := c.order.give [.resize resize.size resize.generation] }
      nativeCall (·.resized)
    else pure (.error .closed)

/-- The next control generation, if this is it. -/
def recordControlApplied (generation : ControlGeneration) : Work (Except ProjectionError Unit) :=
  lock fun c =>
    match c.admission.recordControlApplied generation with
    | (.error e, admission) => (.error e, { c with admission, order := c.order.refuse })
    | (.ok (), admission) => (.ok (), { c with admission })

/-- Count a resize that the OS and the model have both applied. -/
def recordResized (resize : Resizing) : Work Unit := do
  onWorkspace fun w => { w with config := { w.config with size := resize.size } }
  match ← recordControlApplied resize.generation with
  | .error error => fail error
  | .ok () => do
    let a ← input
    onJournal (·.resized a.leases resize.size resize.generation)

def settleModel (resize : Resizing) (os : Except ProcessError Unit)
    (model : Except ProjectionError Unit) : Work Unit :=
  match model, os with
  | .ok (), _ => recordResized resize
  | .error error, .ok () => fail error
  | .error _, .error _ => pure ()

def finishResize (resize : Resizing) (os : Except ProcessError Unit) : Work Unit := do
  let model ← resizeModel resize os
  settleModel resize os model
  completeTicket resize.ticket (.ok (.resized { generation := resize.generation, os, model }))
  update fun c => { c with
    workspace := { c.workspace with resize := none }
    order := c.order.settle (.resize resize.size resize.ticket resize.generation os model) }

def pollResizeSlot : Work (Option WorkSchedule) := do
  match ← look (·.workspace.resize) with
  | none => pure none
  | some resize => do
    let a ← input
    match a.osResized with
    | none => pure (some .dormant)
    | some os => do
      finishResize resize os
      pure none

def pollInflightOperations : Work (Option WorkSchedule) := do
  let registered ← look (·.wiring.handle)
  if registered then do
    match ← pollReplySlot with
    | some schedule => pure (some schedule)
    | none => pollResizeSlot
  else pure none

/-- Let the OS half of a resize finish before cleanup; its model half is closed. -/
def closingResize : Work (Option WorkSchedule) := do
  match ← look (·.workspace.resize) with
  | none => pure none
  | some resize => do
    let registered ← look (·.wiring.handle)
    if registered then do
      let a ← input
      match a.osResized with
      | none => pure (some .dormant)
      | some os => do
        completeTicket resize.ticket (.ok (.resized {
          generation := resize.generation, os, model := .error .closed }))
        onWorkspace fun w => { w with resize := none }
        pure none
    else pure none

theorem failCommands_alone (commands : List Command) (error : ProjectionError) (c : Coordinator) :
    ∃ c', (failCommands commands error).alone c [] = some ((), c') := by
  induction commands generalizing c with
  | nil => exact ⟨c, rfl⟩
  | cons command rest ih =>
    obtain ⟨c', failed⟩ : ∃ c', (failCommand command error).alone c [] = some ((), c') := by
      cases command with
      | output bytes => exact ⟨c, rfl⟩
      | processExited => exact ⟨c, rfl⟩
      | resize size ticket => exact ⟨_, rfl⟩
      | view ticket => exact ⟨_, rfl⟩
      | checkpoint request => cases request <;> exact ⟨_, rfl⟩
    obtain ⟨c'', others⟩ := ih c'
    exact ⟨c'', by rw [failCommands, ← List.append_nil [], alone_bind failed, others]⟩

theorem fail_alone (error : ProjectionError) (c : Coordinator) :
    ∃ c', (fail error).alone c [] = some ((), c') := failCommands_alone _ error _

end Coordinator
end PtyRuntime
