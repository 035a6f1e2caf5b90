import PtyRuntime.Domain.Checkpoint
import PtyRuntime.Domain.Projection.Policy
import PtyRuntime.Domain.ProgramStatus.Store
import PtyRuntime.Application.Journal
import PtyRuntime.Interleaving.Machine

/-! The state of one projection: the admission half its callers touch, the native
workspace its worker owns, and the collaborators released during cleanup. Only disk
reservations are counted here; whether any other lease is granted is an answer of
the surroundings, as is everything the injected ports return. -/
namespace PtyRuntime

/-- What the worker asks of the scheduler after a run. -/
inductive WorkSchedule where
  | finished
  | dormant
  | after (delay : Nat)
  deriving DecidableEq, Repr

/-- An immutable copied view, known by its identity. -/
structure TerminalView where
  copy : Nat
  deriving DecidableEq, Repr

/-- Exclusive ownership of a native model, which only the engine looks into. -/
structure Terminal where
  deriving DecidableEq, Repr

structure ResizeOutcome where
  generation : ControlGeneration
  os : Except ProcessError Unit
  model : Except ProjectionError Unit

structure ProjectedView where
  view : TerminalView
  processed : ReplayCursor
  controlGeneration : ControlGeneration
  history : RestorationProgress

/-- A checkpoint and a continuation opened at the same applied event boundary. -/
structure StateTransfer where
  checkpoint : TerminalCheckpoint
  observer : TransferObserver

/-- What a wait can be completed with. -/
inductive TicketValue where
  | resized (outcome : ResizeOutcome)
  | viewed (view : ProjectedView)
  | pinned (checkpoint : TerminalCheckpoint)
  | transferred (transfer : StateTransfer)
  | cleaned

/-- The shared half of an admitted wait. -/
structure Ticket where
  result : Option (Except ProjectionError TicketValue) := none
  complete : Bool := false
  cancelled : Bool := false

abbrev TicketId := Nat

inductive SnapshotRequest where
  | checkpoint (ticket : TicketId)
  | transfer (ticket : TicketId)
  deriving DecidableEq, Repr

/-- One admitted unit of work waiting in the ordered queue. -/
inductive Command where
  | output (bytes : Bytes)
  | processExited
  | resize (size : TerminalSize) (ticket : TicketId)
  | view (ticket : TicketId)
  | checkpoint (request : SnapshotRequest)
  deriving DecidableEq, Repr

namespace Command

def isOutput : Command → Bool
  | .output _ => true
  | _ => false

/-- Commands whose admission records activity. -/
def mutates : Command → Bool
  | .output _ | .resize _ _ => true
  | _ => false

def output? : Command → Option Bytes
  | .output bytes => some bytes
  | _ => none

end Command

/-- Everything guarded by the admission lock. -/
structure Admission where
  policy : ProjectionPolicy
  outputDrain : Option DrainOutcome := none
  processExitQueued : Bool := false
  queue : List Command := []
  closeWaiters : List TicketId := []
  unreclaimedFailure : Option ProjectionError := none
  cleanupFailure : Option ProjectionError := none
  retryCleanup : Bool := false

/-- A reservation of storage: one slot, and the bytes a protected checkpoint may take.
Leases are told apart by the order in which the runtime granted them. -/
structure DiskLease where
  id : Nat
  bytes : Nat
  deriving DecidableEq, Repr

/-- A committed checkpoint, as a job that reads it back knows it. -/
structure StoredCheckpoint where
  reference : CheckpointRef
  descriptor : CheckpointDescriptor
  deriving DecidableEq, Repr

structure CommittedSource extends StoredCheckpoint where
  disk : DiskLease
  deriving DecidableEq, Repr

/-- A source that was not deleted, or whose commit outcome was never confirmed. -/
structure UnreclaimedSource where
  reference : Option CheckpointRef
  key : CheckpointKey
  descriptor : CheckpointDescriptor
  disk : DiskLease
  deriving DecidableEq, Repr

inductive CommitOutcome where
  | published (reference : CheckpointRef)
  | rejected (error : ProjectionError)
  | uncertain (error : ProjectionError)
  deriving DecidableEq, Repr

/-- One source checked out for a deletion attempt. -/
structure DeleteAttempt where
  source : CommittedSource
  attempts : Nat
  deriving DecidableEq, Repr

/-- Committed sources awaiting deletion, oldest first. -/
structure SourceReaper where
  queue : List DeleteAttempt := []
  maxAttempts : Nat

abbrev Mailbox (α : Type) := Option (Except ProjectionError α)

/-- The single blocking job in flight: what its closure captured, what its
completion needs, and the mailbox it publishes into. -/
inductive PendingIo where
  | commit (attempt : ParkAttempt) (disk : DiskLease) (checkpoint : TerminalCheckpoint)
      (mailbox : Mailbox CommitOutcome)
  | restore (source : StoredCheckpoint) (mailbox : Mailbox TerminalCheckpoint)
  | transfer (request : SnapshotRequest) (source : StoredCheckpoint)
      (mailbox : Mailbox TerminalCheckpoint)
  | delete (attempt : DeleteAttempt) (mailbox : Mailbox Unit)

/-- A job whose worker has published, with the result in place of the mailbox. -/
inductive FinishedIo where
  | commit (attempt : ParkAttempt) (disk : DiskLease)
      (result : Except ProjectionError CommitOutcome)
  | restore (result : Except ProjectionError TerminalCheckpoint)
  | transfer (request : SnapshotRequest) (result : Except ProjectionError TerminalCheckpoint)
  | delete (attempt : DeleteAttempt) (result : Except ProjectionError Unit)

/-- A terminal reply and whether its process write has been submitted. -/
structure Reply where
  bytes : Bytes
  operation : Bool

structure Resizing where
  size : TerminalSize
  generation : ControlGeneration
  ticket : TicketId

/-- Everything guarded by the workspace lock. -/
structure NativeWorkspace where
  config : TerminalConfig
  historyStepOwed : Bool := false
  terminal : Option Terminal
  source : Option CommittedSource := none
  io : Option PendingIo := none
  reply : Option Reply := none
  resize : Option Resizing := none
  reaper : SourceReaper

/-- Session-owned program status; `memory` says its records are charged. -/
structure ProgramStatusState where
  store : Option ProgramStatusStore
  memory : Bool := false
  exited : Bool := false
  drained : Bool := false

/-- Which injected collaborators have not been released. -/
structure Wiring where
  services : Bool := true
  handle : Bool := true
  process : Bool := false

/-- What is fixed for the projection's whole life, the engine's capabilities, the
limits of the shared budgets and the compiler's structure sizes included. -/
structure ProjectionConfig where
  options : ProjectionOptions
  compatibility : String
  protectedBytes : Nat
  storedBytes : Nat
  storedSlots : Nat
  mutationDuringRestore : Bool
  viewLimit : Nat
  cellSize : Nat
  mutationSize : Nat
  recordSize : Nat

/-- What happened to the output stream and to the parking attempt so far. No
decision reads it. -/
structure Trace where
  /-- Every chunk queued for the parser, in admission order. -/
  admitted : List Bytes := []
  /-- Every chunk counted as processed. -/
  applied : List Bytes := []
  /-- The chunk the worker has dequeued and neither counted nor put back. -/
  hand : Option Bytes := none
  /-- Every byte given to the native model. -/
  fed : Bytes := []
  /-- The worker has seen no failure and will dequeue without looking again. -/
  poised : Bool := false
  /-- The descriptor the last parking checkpoint was encoded at. -/
  encoded : Option CheckpointDescriptor := none
  /-- Output and resizes admitted since the last parking attempt began. -/
  since : Nat := 0

/-- The runtime's storage budget, which all of its projections share. -/
structure DiskBudget where
  stored : Quota
  storedSlots : Quota
  /-- What the runtime's other projections hold. -/
  elsewhere : List DiskLease := []

/-- What the worker holds of a reservation between two of its steps. -/
inductive Custody where
  | slot
  | commit (disk : DiskLease)
  | delete (disk : DiskLease)
  deriving DecidableEq, Repr

/-- Ciphertext the provider may hold under a reservation. -/
structure StoredObject where
  disk : DiskLease
  bytes : Nat
  deriving DecidableEq, Repr

/-- What has become of the reservations so far. No decision reads it. -/
structure StorageLog where
  /-- How many leases the runtime has granted. -/
  granted : Nat := 0
  moving : Option Custody := none
  /-- Leases whose commit was submitted. -/
  submitted : List Nat := []
  /-- Leases whose commit was reported rejected. -/
  rejected : List Nat := []
  /-- Leases whose source the provider has deleted. -/
  deleted : List Nat := []
  objects : List StoredObject := []

/-- One input of the native model. -/
inductive ModelInput where
  | byte (value : UInt8)
  | resize (size : TerminalSize) (generation : ControlGeneration)
  deriving DecidableEq, Repr

/-- A command that has had all the effect it will have. -/
inductive Settled where
  | output (bytes : Bytes)
  | resize (size : TerminalSize) (ticket : TicketId) (generation : ControlGeneration)
      (os : Except ProcessError Unit) (model : Except ProjectionError Unit)

/-- The order in which commands were admitted and reached the native model. No
decision reads it. -/
structure OrderLog where
  /-- Every output and resize queued, in admission order. -/
  admitted : List Command := []
  settled : List Settled := []
  /-- The output or resize the worker has dequeued and neither settled nor put back. -/
  current : Option Command := none
  /-- Everything the native model was given. -/
  given : List ModelInput := []
  /-- Resizes that succeeded and could not be counted. -/
  refused : Nat := 0

/-- What became of the exit marker, and where the worker stands between its two looks
at the queue of a projection without a live model. No decision reads it. -/
structure ExitLog where
  /-- Every chunk admitted before the marker was queued. -/
  queuedBehind : Option (List Bytes) := none
  /-- The chunks processed by each time the marker was applied. -/
  appliedAfter : List (List Bytes) := []
  /-- A settled drain has dropped what the exit left. -/
  settled : Bool := false
  /-- The worker has looked for the marker and has yet to ask whether any work is queued. -/
  looked : Bool := false
  /-- The marker was queued onto an empty queue between the two looks. -/
  raced : Bool := false
  /-- Sources read back for a queue that held nothing but the marker. -/
  restored : Nat := 0

/-- What became of the committed sources, and how deleting them has gone since the last
close request. No decision reads it. -/
structure RoundLog where
  /-- Leases of the sources this projection has held. -/
  sources : List Nat := []
  /-- Leases whose commit had an uncertain outcome. -/
  uncertain : List Nat := []
  /-- The deletion in flight was submitted after the last close request. -/
  fresh : Bool := false
  /-- The lease of each deletion submitted after the last close request that has failed. -/
  failed : List Nat := []
  /-- How many of these were of the oldest source, at the moment cleanup surrendered. -/
  surrendered : Option Nat := none
  /-- Cleanup went by a failure while a close request to try again was pending. -/
  overtaken : Bool := false
  /-- The owner has abandoned cleanup. -/
  abandoned : Bool := false

structure Coordinator where
  journal : Journal
  config : ProjectionConfig
  wiring : Wiring := {}
  admission : Admission
  workspace : NativeWorkspace
  programStatus : ProgramStatusState
  tickets : List Ticket := []
  unreclaimed : List UnreclaimedSource := []
  stallGeneration : Nat := 0
  disk : DiskBudget
  trace : Trace := {}
  storage : StorageLog := {}
  order : OrderLog := {}
  exits : ExitLog := {}
  rounds : RoundLog := {}

/-- Everything the surroundings can answer. A port call reads its own field; `none`
for an engine call means that the call panicked. -/
structure Answer where
  now : Nat := 0
  granted : Bool := true
  allocated : Bool := true
  woken : Bool := true
  submitted : Bool := true
  generation : Nat := 0
  leases : Nat → Bool := fun _ => true
  planBytes : Nat := 0
  fed : Option (Except TerminalError Bytes) := some (.ok [])
  encoded : Option (Except TerminalError TerminalCheckpoint) := none
  restored : Option (Except TerminalError Terminal) := some (.ok {})
  progress : Option RestorationProgress := some .complete
  stepped : Option (Except TerminalError RestorationProgress) := some (.ok .complete)
  resized : Option (Except TerminalError Unit) := some (.ok ())
  viewed : Option (Except TerminalError TerminalView) := some (.ok ⟨0⟩)
  writing : Except ProcessError Unit := .ok ()
  written : Option WriteOutcome := none
  resizing : Except ProcessError Unit := .ok ()
  osResized : Option (Except ProcessError Unit) := none
  panicked : Bool := false
  isProtected : Except CheckpointError ProtectedCheckpoint := .error .unavailable
  committed : Except CheckpointError CheckpointRef := .error .unavailable
  read : Except CheckpointError ProtectedCheckpoint := .error .unavailable
  opened : Except CheckpointError TerminalCheckpoint := .error .unavailable
  deleted : Except CheckpointError Unit := .ok ()

abbrev Work (α : Type) := Thread Coordinator Answer α

/-- The projection `create` returns for accepted options: a live model, an empty
queue, and a registered worker. -/
def Coordinator.create (lifetime : SessionLifetime) (config : ProjectionConfig) (now : Nat)
    (identity : Nat) : Except ProjectionError Coordinator :=
  match ProjectionPolicy.new config.cellSize lifetime config.options now with
  | .error e => .error e
  | .ok policy =>
    match ProgramStatusStore.new identity config.options.programStatusRecords with
    | .error _ => .error .invalidConfiguration
    | .ok store =>
      .ok {
        journal := .new lifetime
        config
        admission := { policy }
        workspace := {
          config := config.options.terminal
          terminal := some {}
          reaper := { maxAttempts := config.options.maxDeleteAttempts } }
        programStatus := { store := some store }
        disk := {
          stored := { limit := config.storedBytes, used := 0 }
          storedSlots := { limit := config.storedSlots, used := 0 } } }

end PtyRuntime
