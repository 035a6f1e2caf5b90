import PtyRuntime.Application.Grants
import PtyRuntime.Application.Projection.Callers
import PtyRuntime.Infrastructure.Process.Session

/-! Creating a projection out of validated options, the counters it and its runtime share,
and what one operation takes from each. -/
namespace PtyRuntime

/-- The runtime's shared counters and one session's own halves of three of them. -/
inductive Counter where
  | observers
  | replay
  | inputBytes
  | inputSlots
  | journalBytes
  | journalSlots
  | transferObservers
  | stagingBytes
  | stagingSlots
  | resident
  | checkpoints
  | stored
  | storedSlots
  | views
  | requests
  | sessionStagingBytes
  | sessionStagingSlots
  | sessionRequests
  deriving DecidableEq, Repr

/-- `Runtime::new`, `ProjectionBudgets::new` and `SessionQuotas::new`. -/
def Counter.limit (runtime : RuntimeOptions) (options : ProjectionOptions) : Counter → Nat
  | observers => runtime.maxObservers
  | replay => runtime.replayBytes
  | inputBytes => runtime.inputBytes
  | inputSlots => runtime.inputSlots
  | journalBytes => runtime.projection.journalBytes
  | journalSlots => runtime.projection.journalSlots
  | transferObservers => runtime.projection.transferObservers
  | stagingBytes => runtime.projection.stagingBytes
  | stagingSlots => runtime.projection.stagingSlots
  | resident => runtime.projection.residentBytes
  | checkpoints => runtime.projection.checkpointBytes
  | stored => runtime.projection.storedBytes
  | storedSlots => runtime.projection.storedSlots
  | views => runtime.projection.viewBytes
  | requests => runtime.projection.requestSlots
  | sessionStagingBytes => options.stagingBytes
  | sessionStagingSlots => options.stagingSlots
  | sessionRequests => options.requestSlots

/-- What the ports and the allocator answer while a projection is created; `none` for a
call means that it panicked. -/
structure CreationAnswer where
  now : Nat := 0
  identity : Nat := 0
  protectedSize : Option (Except CheckpointError Nat)
  checkpoints : Bool := true
  mutationDuringRestore : Bool := false
  compatibility : Except TerminalError String
  terminal : Option (Except TerminalError Terminal) := some (.ok {})
  allocated : Bool := true
  registered : Bool := true
  woken : Bool := true

/-- The sizes the compiler gives a copied cell, a planned mutation and a status record. -/
structure LayoutSizes where
  cell : Nat
  mutation : Nat
  record : Nat

namespace Coordinator

/-- The comparisons of `ProjectionCoordinator::create`. -/
def admits (limits : ProjectionLimits) (options : ProjectionOptions) (protectedBytes peak views : Nat) : Bool :=
  protectedBytes ≠ 0 ∧ protectedBytes ≤ isizeMax ∧ peak ≤ limits.checkpointBytes ∧
    protectedBytes ≤ limits.storedBytes ∧ options.terminal.feedBytes ≤ limits.stagingBytes ∧
    max views options.terminal.replyBytes ≤ limits.viewBytes

/-- `ProjectionCoordinator::create` up to its reservation of resident bytes, with the size
that protected checkpoints may have. -/
def reserveModel (options : ProjectionOptions) (limits : ProjectionLimits) (cellSize : Nat) (resident : Quota)
    (a : CreationAnswer) : Except ProjectionError (Nat × Quota) :=
  match options.validate cellSize with
  | .error e => .error e
  | .ok options =>
    if ((checkedAdd options.stagingSlots options.requestSlots).bind (checkedAdd · 1)).isNone then
      .error .invalidConfiguration
    else
      match a.protectedSize with
      | none => .error .worker
      | some (.error e) => .error (.storage e)
      | some (.ok protectedBytes) =>
        match checkedAdd protectedBytes options.terminal.checkpointBytes with
        | none => .error .invalidConfiguration
        | some peak =>
          match options.viewReservation cellSize with
          | .error e => .error e
          | .ok views =>
            if admits limits options protectedBytes peak views && a.checkpoints then
              match resident.acquire options.terminal.nativeBytes with
              | (false, _) => .error .capacity
              | (true, resident) => .ok (protectedBytes, resident)
            else .error .invalidConfiguration

/-- `ProjectionCoordinator::create` on the runtime's counter of resident bytes. -/
def createProjection (lifetime : SessionLifetime) (options : ProjectionOptions) (limits : ProjectionLimits)
    (sizes : LayoutSizes) (resident : Quota) (a : CreationAnswer) : Except ProjectionError (Coordinator × Quota) :=
  match reserveModel options limits sizes.cell resident a with
  | .error e => .error e
  | .ok (protectedBytes, resident) =>
    match a.compatibility with
    | .error e => .error (.terminal e)
    | .ok compatibility =>
      match a.terminal with
      | none => .error .worker
      | some (.error e) => .error (.terminal e)
      | some (.ok _) =>
        if a.allocated then
          match create lifetime {
            options, compatibility, protectedBytes
            storedBytes := limits.storedBytes
            storedSlots := limits.storedSlots
            mutationDuringRestore := a.mutationDuringRestore
            viewLimit := limits.viewBytes
            cellSize := sizes.cell
            mutationSize := sizes.mutation
            recordSize := sizes.record } a.now a.identity with
          | .error e => .error e
          | .ok c => if a.registered && a.woken then .ok (c, resident) else .error .worker
        else .error .capacity

/-- `reserve_staging` for a chunk that carries bytes. -/
def stagingWants (count : Nat) : List (Want Counter) :=
  Want.staging .stagingSlots .sessionStagingSlots .stagingBytes .sessionStagingBytes count

/-- The leases of `start_park`. -/
def parkWants (terminal : TerminalConfig) (protectedBytes : Nat) : List (Want Counter) :=
  Want.ioMemory .checkpoints terminal.checkpointBytes protectedBytes ++
    Want.diskLease .storedSlots .stored protectedBytes

/-- The leases of `start_read` for a restore. -/
def restoreWants (terminal : TerminalConfig) (protectedBytes : Nat) : List (Want Counter) :=
  Want.ioMemory .checkpoints terminal.checkpointBytes protectedBytes ++ [Want.shared .resident terminal.nativeBytes]

theorem stagingWants_amounts (count : Nat) :
    Want.amounts (stagingWants count) =
      [(.stagingSlots, 1), (.sessionStagingSlots, 1), (.stagingBytes, count), (.sessionStagingBytes, count)] := rfl

theorem parkWants_amounts (terminal : TerminalConfig) (protectedBytes : Nat) :
    Want.amounts (parkWants terminal protectedBytes) =
      [(.checkpoints, terminal.checkpointBytes), (.checkpoints, protectedBytes), (.storedSlots, 1),
        (.stored, protectedBytes)] := rfl

theorem restoreWants_amounts (terminal : TerminalConfig) (protectedBytes : Nat) :
    Want.amounts (restoreWants terminal protectedBytes) =
      [(.checkpoints, terminal.checkpointBytes), (.checkpoints, protectedBytes),
        (.resident, terminal.nativeBytes)] := rfl

end Coordinator

/-- What the process of a session admits input by. -/
def ProcessLimits.input (l : ProcessLimits) : ProcessSession.InputLimits where
  inputChunk := l.inputChunk
  inputSlots := l.inputSlots
  inputBytes := l.inputBytes
  writeTimeout := l.writeTimeout

end PtyRuntime
