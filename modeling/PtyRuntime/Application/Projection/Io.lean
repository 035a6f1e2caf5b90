import PtyRuntime.Application.Projection.Native

/-! The blocking-I/O lifecycle: the jobs and what counts as a valid provider
answer, the one slot a job is recorded in, bounded deletion of superseded sources,
and starting and finishing a read, a park or a deletion. -/
namespace PtyRuntime
open Thread

/-- Read a committed source back and authenticate it. -/
def readJob (source : StoredCheckpoint) (plaintextMax : Nat) (a : Answer) :
    Except ProjectionError TerminalCheckpoint :=
  match a.read with
  | .error e => .error (.storage e)
  | .ok bytes =>
    if bytes.ciphertext.length ≠ source.reference.bytes then .error (.storage .unavailable)
    else
      match a.opened with
      | .error e => .error (.storage e)
      | .ok checkpoint =>
        if checkpoint.descriptor ≠ source.descriptor ∨ checkpoint.capacity > plaintextMax then
          .error .invalidConfiguration
        else .ok checkpoint

/-- Protect a checkpoint and commit it. Once the store has acknowledged, disagreement
about what it wrote is uncertain rather than rejected. -/
def commitJob (key : CheckpointKey) (descriptor : CheckpointDescriptor) (protectedMax : Nat)
    (a : Answer) : CommitOutcome :=
  match a.isProtected with
  | .error e => .rejected (.storage e)
  | .ok sealed =>
    if sealed.key ≠ key ∨ sealed.descriptor ≠ descriptor ∨ sealed.ciphertext = [] ∨
        sealed.ciphertext.length > protectedMax then .rejected .invalidConfiguration
    else
      match a.committed with
      | .error e => .rejected (.storage e)
      | .ok reference =>
        if reference.key ≠ key ∨ reference.bytes ≠ sealed.ciphertext.length then
          .uncertain .invalidConfiguration
        else .published reference

def deleteJob (a : Answer) : Except ProjectionError Unit := a.deleted.mapError .storage

/-- What a job's closure publishes: a panic becomes worker failure. -/
def jobResult {α : Type} (a : Answer) (result : Except ProjectionError α) : Except ProjectionError α :=
  if a.panicked then .error .worker else result

def ParkAttempt.key (attempt : ParkAttempt) : CheckpointKey where
  lifetime := attempt.processed.lifetime
  generation := attempt.generation

/-- The version an attempt captured, as a descriptor. -/
def ParkAttempt.descriptor (attempt : ParkAttempt) (compatibility : String) :
    CheckpointDescriptor where
  compatibility
  processed := attempt.processed
  controlGeneration := attempt.controlGeneration

namespace PendingIo

/-- A worker publishes the result of its one job. -/
def publish (config : ProjectionConfig) (plaintextMax : Nat) (a : Answer) : PendingIo → PendingIo
  | .commit attempt disk checkpoint none =>
    .commit attempt disk checkpoint (some (jobResult a (.ok
      (commitJob attempt.key checkpoint.descriptor config.protectedBytes a))))
  | .restore source none => .restore source (some (jobResult a (readJob source plaintextMax a)))
  | .transfer request source none =>
    .transfer request source (some (jobResult a (readJob source plaintextMax a)))
  | .delete attempt none => .delete attempt (some (jobResult a (deleteJob a)))
  | published => published

/-- The job with its result, once its worker has published one. -/
def finished : PendingIo → Option FinishedIo
  | .commit attempt disk _ (some result) => some (.commit attempt disk result)
  | .restore _ (some result) => some (.restore result)
  | .transfer request _ (some result) => some (.transfer request result)
  | .delete attempt (some result) => some (.delete attempt result)
  | _ => none

end PendingIo

namespace UnreclaimedSource

/-- A park whose commit outcome was never confirmed. -/
def fromUncertainPark (compatibility : String) (attempt : ParkAttempt) (disk : DiskLease) :
    UnreclaimedSource where
  reference := none
  key := attempt.key
  descriptor := attempt.descriptor compatibility
  disk

def ofCommitted (source : CommittedSource) : UnreclaimedSource where
  reference := some source.reference
  key := source.reference.key
  descriptor := source.descriptor
  disk := source.disk

end UnreclaimedSource

namespace SourceReaper

def retire (r : SourceReaper) (source : CommittedSource) : SourceReaper :=
  { r with queue := r.queue ++ [{ source, attempts := 0 }] }

def holdsSources (r : SourceReaper) : Bool := !r.queue.isEmpty

/-- The oldest source, unless its attempts are spent; it is never skipped over. -/
def checkOut (r : SourceReaper) : Option (DeleteAttempt × SourceReaper) :=
  match r.queue with
  | [] => none
  | attempt :: rest =>
    if attempt.attempts ≥ r.maxAttempts then none else some (attempt, { r with queue := rest })

def putBack (r : SourceReaper) (attempt : DeleteAttempt) : SourceReaper :=
  { r with queue := attempt :: r.queue }

/-- Settle a deletion; an error is reported once the source's attempts are spent. -/
def finishDelete (r : SourceReaper) (attempt : DeleteAttempt) (result : Except ProjectionError Unit) :
    Option ProjectionError × SourceReaper :=
  match result with
  | .ok () => (none, r)
  | .error error =>
    let attempts := min (attempt.attempts + 1) (2 ^ 32 - 1)
    (if attempts ≥ r.maxAttempts then some error else none, r.putBack { attempt with attempts })

def restoreAttempts (r : SourceReaper) : SourceReaper :=
  { r with queue := r.queue.map fun attempt => { attempt with attempts := 0 } }

def surrender (r : SourceReaper) : List UnreclaimedSource × SourceReaper :=
  (r.queue.map fun attempt => .ofCommitted attempt.source, { r with queue := [] })

end SourceReaper

/-- The committed source, if there is one, is no longer needed. -/
def NativeWorkspace.retireSource (w : NativeWorkspace) : NativeWorkspace :=
  match w.source with
  | none => w
  | some source => { w with source := none, reaper := w.reaper.retire source }

/-- The size of the ciphertext a commit job hands to the store, if it gets that far. -/
def offeredBytes (key : CheckpointKey) (descriptor : CheckpointDescriptor) (protectedMax : Nat)
    (a : Answer) : Option Nat :=
  match a.isProtected with
  | .error _ => none
  | .ok sealed =>
    if sealed.key ≠ key ∨ sealed.descriptor ≠ descriptor ∨ sealed.ciphertext = [] ∨
        sealed.ciphertext.length > protectedMax then none
    else some sealed.ciphertext.length

namespace StorageLog

/-- The worker has put down what it held. -/
def place (s : StorageLog) : StorageLog := { s with moving := none }

def hold (s : StorageLog) (custody : Custody) : StorageLog := { s with moving := some custody }

/-- A submitted job owns the reservation that went with it. -/
def submit (s : StorageLog) : PendingIo → StorageLog
  | .commit _ disk _ _ => { s with moving := none, submitted := s.submitted ++ [disk.id] }
  | .delete _ _ => { s with moving := none }
  | .restore _ _ | .transfer _ _ _ => s

/-- A finished job gives its reservation back to the worker. -/
def take (s : StorageLog) : FinishedIo → StorageLog
  | .commit _ disk _ => s.hold (.commit disk)
  | .delete attempt _ => s.hold (.delete attempt.source.disk)
  | .restore _ | .transfer _ _ => s

/-- What a job may have done to the store by the time it publishes. A commit that
reports a rejection has stored nothing. -/
def publish (s : StorageLog) (config : ProjectionConfig) (a : Answer) : PendingIo → StorageLog
  | .commit attempt disk checkpoint none =>
    match jobResult a (.ok (commitJob attempt.key checkpoint.descriptor config.protectedBytes a)) with
    | .ok (.rejected _) => { s with rejected := s.rejected ++ [disk.id] }
    | _ =>
      match offeredBytes attempt.key checkpoint.descriptor config.protectedBytes a with
      | none => s
      | some bytes => { s with objects := s.objects ++ [{ disk, bytes }] }
  | .delete attempt none =>
    match jobResult a (deleteJob a) with
    | .error _ => s
    | .ok () => { s with
        deleted := s.deleted ++ [attempt.source.disk.id]
        objects := s.objects.filter (·.disk.id != attempt.source.disk.id) }
  | _ => s

end StorageLog

namespace RoundLog

/-- A committed checkpoint has become a source. -/
def hold (r : RoundLog) (disk : DiskLease) : RoundLog :=
  { r with sources := r.sources ++ [disk.id] }

def doubt (r : RoundLog) (disk : DiskLease) : RoundLog :=
  { r with uncertain := r.uncertain ++ [disk.id] }

def submit (r : RoundLog) : PendingIo → RoundLog
  | .delete _ _ => { r with fresh := true }
  | .commit _ _ _ _ | .restore _ _ | .transfer _ _ _ => r

/-- A failed deletion counts for the round it was submitted in. -/
def fail (r : RoundLog) (disk : DiskLease) : RoundLog :=
  if r.fresh then { r with failed := r.failed ++ [disk.id] } else r

/-- Cleanup goes by the failure it has found. -/
def act (r : RoundLog) (failed : Option ProjectionError) (pending : Bool) : RoundLog :=
  { r with overtaken := r.overtaken || (failed.isSome && pending) }

/-- Cleanup surrenders what is queued, oldest first. -/
def surrender (r : RoundLog) (queue : List DeleteAttempt) : RoundLog :=
  { r with surrendered := queue.head?.map fun head => r.failed.count head.source.disk.id }

end RoundLog

namespace Coordinator

/-- The slot half of a disk reservation. A refusal may be due to a slot that another
projection is about to give back. -/
def takeSlot (a : Answer) : Work Bool :=
  lock fun c =>
    match a.granted, c.disk.storedSlots.acquire 1 with
    | true, (true, storedSlots) =>
      (true, { c with disk := { c.disk with storedSlots }, storage := c.storage.hold .slot })
    | _, _ => (false, c)

def giveBackSlot : Work Unit :=
  update fun c => { c with
    disk := { c.disk with storedSlots := c.disk.storedSlots.release 1 }, storage := c.storage.place }

/-- The byte half, which makes the reservation a lease. -/
def takeBytes : Work (Option DiskLease) :=
  lock fun c =>
    match c.disk.stored.acquire c.config.protectedBytes with
    | (false, _) => (none, c)
    | (true, stored) =>
      let disk := { id := c.storage.granted, bytes := c.config.protectedBytes }
      (some disk, { c with
        disk := { c.disk with stored }
        storage := { c.storage with granted := c.storage.granted + 1, moving := some (.commit disk) } })

/-- `DiskLease::acquire`: a slot whose bytes are refused is given back. -/
def acquireDisk : Work (Option DiskLease) := do
  let a ← input
  let slot ← takeSlot a
  if slot then do
    match ← takeBytes with
    | some disk => pure (some disk)
    | none => do
      giveBackSlot
      pure none
  else pure none

/-- Dropping a lease releases its bytes and then its slot. -/
def releaseDisk (disk : DiskLease) : Work Unit := do
  update fun c => { c with
    disk := { c.disk with stored := c.disk.stored.release disk.bytes }, storage := c.storage.hold .slot }
  giveBackSlot

/-- Submit one job and record it in the same step. An occupied slot or a full pool
leaves the slot untouched. -/
def submit (job : PendingIo) : Work (Except ProjectionError Unit) := do
  let a ← input
  lock fun c =>
    if c.workspace.io.isSome then (.error .worker, c)
    else if a.submitted then
      (.ok (), { c with
        workspace := { c.workspace with io := some job }
        storage := c.storage.submit job
        rounds := c.rounds.submit job })
    else (.error .capacity, c)

def retireSource (source : CommittedSource) : Work Unit :=
  update fun c => { c with
    workspace := { c.workspace with reaper := c.workspace.reaper.retire source }
    storage := c.storage.place
    rounds := c.rounds.hold source.disk }

/-- Start deleting the next due source, if there is one the pool will take. -/
def startDelete : Work WorkSchedule := do
  let due ← lock fun c =>
    match c.workspace.reaper.checkOut with
    | none => (none, c)
    | some (attempt, reaper) =>
      (some attempt, { c with
        workspace := { c.workspace with reaper }
        storage := c.storage.hold (.delete attempt.source.disk) })
  match due with
  | none => pure .dormant
  | some attempt =>
    match ← submit (.delete attempt none) with
    | .ok () => pure .dormant
    | .error _ => do
      update fun c => { c with
        workspace := { c.workspace with reaper := c.workspace.reaper.putBack attempt }
        storage := c.storage.place }
      pure (.after retrySoon)

/-- Serve a queued checkpoint straight from the parked source. -/
def readForTransfer (source : CommittedSource) (request : SnapshotRequest) : Work WorkSchedule := do
  match ← submit (.transfer request source.toStoredCheckpoint none) with
  | .ok () => pure .dormant
  | .error error => do
    failRequest request error
    pure (.after retrySoon)

def readForRestore (source : CommittedSource) : Work WorkSchedule := do
  let resident ← input
  if resident.granted then
    match ← submit (.restore source.toStoredCheckpoint none) with
    | .ok () => do
      match ← locked (·.beginRestore) with
      | .error error => do
        fail error
        pure .dormant
      | .ok () => pure .dormant
    | .error _ => pure (.after retrySoon)
  else pure (.after retrySoon)

def startRead (transfer : Option Command) : Work WorkSchedule := do
  let available ← services
  if available then do
    match ← look (·.workspace.source) with
    | none => do
      fail .worker
      pure .dormant
    | some source => do
      let memory ← input
      match memory.granted, transfer with
      | true, some (.checkpoint request) => readForTransfer source request
      | true, _ => readForRestore source
      | false, some command => do
        failCommand command .capacity
        pure (.after retrySoon)
      | false, none => pure (.after retrySoon)
  else pure .finished

/-- Encode the model for parking, once memory and disk are reserved. -/
def encodePark : Work (Except ProjectionError (TerminalCheckpoint × DiskLease)) := do
  let memory ← input
  if memory.granted then do
    match ← acquireDisk with
    | none => pure (.error .capacity)
    | some disk => do
      let descriptor ← descriptor
      let encoded ← encode descriptor
      update fun c => { c with trace := { c.trace with encoded := some descriptor } }
      match encoded with
      | .error error => do
        releaseDisk disk
        pure (.error error)
      | .ok checkpoint => pure (.ok (checkpoint, disk))
  else pure (.error .capacity)

def parkFailed (error : ProjectionError) : Work WorkSchedule := do
  let a ← input
  locked fun admission => ((), admission.parkFailed error a.now)
  look fun c => .after c.config.options.retryAfter

def submitPark (attempt : ParkAttempt) (checkpoint : TerminalCheckpoint) (disk : DiskLease) :
    Work WorkSchedule := do
  match ← submit (.commit attempt disk checkpoint none) with
  | .ok () => pure .dormant
  | .error error => do
    let schedule ← parkFailed error
    releaseDisk disk
    pure schedule

/-- Begin a parking attempt; the trace starts counting admissions against it. -/
def beginPark (now : Nat) : Work ParkStart :=
  lock fun c =>
    match c.admission.beginPark now with
    | (.ready attempt, admission) =>
      (.ready attempt, { c with admission, trace := { c.trace with since := 0 } })
    | (start, admission) => (start, { c with admission })

def startPark : Work WorkSchedule := do
  let available ← services
  if available then do
    let a ← input
    match ← beginPark a.now with
    | .busy => pure (.after 0)
    | .notDue => pure .dormant
    | .ready attempt =>
      match ← encodePark with
      | .error error => parkFailed error
      | .ok (checkpoint, disk) => submitPark attempt checkpoint disk
  else pure .finished

/-- Take the job, with its result, only if its worker has published one. -/
def takeFinished : Work (Option FinishedIo) :=
  lock fun c =>
    match c.workspace.io.bind PendingIo.finished with
    | none => (none, c)
    | some finished =>
      (some finished, { c with
        workspace := { c.workspace with io := none }, storage := c.storage.take finished })

/-- Retire the source that a finished restoration no longer needs. -/
def retireRestored : Work Unit := onWorkspace (·.retireSource)

def historyProgress (progress : RestorationProgress) : Work Unit := do
  match ← locked (·.recordRestorationProgress progress) with
  | .error error => fail error
  | .ok () => if progress.isFinished then retireRestored else pure ()

/-- Charge a source the runtime could not prove it deleted, which the worker holds. -/
def recordUnreclaimed (source : String → UnreclaimedSource) : Work Unit :=
  update fun c => { c with
    unreclaimed := c.unreclaimed ++ [source c.config.compatibility]
    storage := c.storage.place }

/-- Release the live model only if the attempt still describes the exact current
version; otherwise the committed source is superseded. -/
def finishCommit (attempt : ParkAttempt) (disk : DiskLease) (reference : CheckpointRef) :
    Work Unit := do
  let compatibility ← look (·.config.compatibility)
  let release ← locked (·.commitPark attempt)
  if release then
    update fun c => { c with
      workspace := { c.workspace with
        terminal := none
        source := some { reference, descriptor := attempt.descriptor compatibility, disk } }
      storage := c.storage.place
      rounds := c.rounds.hold disk }
  else retireSource { reference, descriptor := attempt.descriptor compatibility, disk }

/-- The failure outlives the retry; the log remembers whose commit it was. -/
def parkOutcomeUncertain (disk : DiskLease) (error : ProjectionError) (now : Nat) : Work Unit :=
  update fun c => { c with
    admission := c.admission.parkOutcomeUncertain error now, rounds := c.rounds.doubt disk }

/-- A panicked commit worker may have stored ciphertext before it died. -/
def commitOutcome : Except ProjectionError CommitOutcome → CommitOutcome
  | .ok outcome => outcome
  | .error error => .uncertain error

def applyCommit (attempt : ParkAttempt) (disk : DiskLease)
    (result : Except ProjectionError CommitOutcome) : Work Unit :=
  match commitOutcome result with
  | .published reference => finishCommit attempt disk reference
  | .uncertain error => do
    recordUnreclaimed (.fromUncertainPark · attempt disk)
    let a ← input
    parkOutcomeUncertain disk error a.now
  | .rejected error => do
    let a ← input
    locked fun admission => ((), admission.parkFailed error a.now)
    releaseDisk disk

/-- Hand the restored model to the workspace. -/
def adoptTerminal (terminal : Terminal) : Work Unit := do
  match ← nativeCall fun a => a.progress.map .ok with
  | .error _ => pure ()
  | .ok progress => do
    onWorkspace fun w => { w with terminal := some terminal, historyStepOwed := false }
    historyProgress progress

def applyRestore (result : Except ProjectionError TerminalCheckpoint) : Work Unit := do
  match result with
  | .error error => fail error
  | .ok _ =>
    match ← nativeCall (·.restored) with
    | .error error => fail error
    | .ok terminal => adoptTerminal terminal

/-- A deleted source drops its lease; any other goes back to the reaper. -/
def settleDelete (attempt : DeleteAttempt) (result : Except ProjectionError Unit) :
    Work (Option ProjectionError) :=
  match result with
  | .ok () => do
    releaseDisk attempt.source.disk
    pure none
  | .error _ =>
    lock fun c =>
      ((c.workspace.reaper.finishDelete attempt result).1,
        { c with
          workspace := { c.workspace with
            reaper := (c.workspace.reaper.finishDelete attempt result).2 }
          storage := c.storage.place
          rounds := c.rounds.fail attempt.source.disk })

def applyDelete (attempt : DeleteAttempt) (result : Except ProjectionError Unit) : Work Unit := do
  match ← settleDelete attempt result with
  | none => pure ()
  | some error => locked fun admission => ((), admission.maintenanceFailed error)

def applyFinished (closing : Bool) : FinishedIo → Work Unit
  | .commit attempt disk result => applyCommit attempt disk result
  | .restore result => if closing then pure () else applyRestore result
  | .transfer request result =>
    completeRequest request (if closing then .error .closed else result)
  | .delete attempt result => applyDelete attempt result

/-- Apply the result of the one blocking job, if it has finished. -/
def finishIo : Work Unit := do
  let available ← services
  if available then do
    match ← takeFinished with
    | none => pure ()
    | some finished => do
      let now ← status
      applyFinished now.residency.isClosing finished
  else pure ()

end Coordinator
end PtyRuntime
