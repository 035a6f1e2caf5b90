import PtyRuntime.Domain.Terminal

/-! Projection failures and the per-session admission and parking bounds. -/
namespace PtyRuntime

/-- Stable storage and protection failures. -/
inductive CheckpointError where
  | invalidConfiguration
  | capacityExceeded
  | alreadyExists
  | notFound
  | unavailable
  | authenticationFailed
  | entropyUnavailable
  | cancelled
  deriving DecidableEq, Repr

/-- Redacted projection failure with its original portable boundary category. -/
inductive ProjectionError where
  | capacity
  | invalidConfiguration
  | closed
  | terminal (error : TerminalError)
  | storage (error : CheckpointError)
  | process (error : ProcessError)
  | worker
  deriving DecidableEq, Repr

/-- `Duration::MAX` in nanoseconds. -/
def durationMax : Nat := u64Max * 1000000000 + 999999999

/-- `Duration::saturating_add`. -/
def durationAdd (a b : Nat) : Nat := min (a + b) durationMax

/-- Global admission bounds shared by every projected session of one runtime. -/
structure ProjectionLimits where
  journalBytes : Nat := 16 * 1024 * 1024
  journalSlots : Nat := 4096
  transferObservers : Nat := 2048
  stagingBytes : Nat := 64 * 1024 * 1024
  stagingSlots : Nat := 16384
  residentBytes : Nat := 1024 * 1024 * 1024
  checkpointBytes : Nat := 512 * 1024 * 1024
  storedBytes : Nat := 1024 * 1024 * 1024
  storedSlots : Nat := 4096
  viewBytes : Nat := 128 * 1024 * 1024
  requestSlots : Nat := 4096
  deriving DecidableEq, Repr

/-- `isize::MAX`. -/
def isizeMax : Nat := 2 ^ 63 - 1

/-- Reject zero or impossible allocation bounds before reserving any storage. -/
def ProjectionLimits.validate (l : ProjectionLimits) : Except ProjectionError ProjectionLimits :=
  let limits := [l.journalBytes, l.journalSlots, l.transferObservers, l.stagingBytes,
    l.stagingSlots, l.residentBytes, l.checkpointBytes, l.storedBytes, l.storedSlots, l.viewBytes,
    l.requestSlots]
  if l.storedSlots > 65536 ∨ limits.any (fun v => v = 0 ∨ v > isizeMax) then
    .error .invalidConfiguration
  else .ok l

/-- Per-session projection admission and bounded idle-parking retry policy. -/
structure ProjectionOptions where
  journalBytes : Nat
  journalSlots : Nat
  transferObservers : Nat
  terminal : TerminalConfig
  programStatusRecords : Nat
  stagingBytes : Nat
  stagingSlots : Nat
  requestSlots : Nat
  parkAfter : Nat
  retryAfter : Nat
  maxParkAttempts : Nat
  maxDeleteAttempts : Nat
  deriving DecidableEq, Repr

namespace ProjectionOptions

/-- Native view text cap plus all admitted cell structs, where `cellSize` is the
size the compiler gives one copied terminal cell. -/
def viewReservation (cellSize : Nat) (o : ProjectionOptions) : Except ProjectionError Nat :=
  let cells := o.terminal.size.cols * o.terminal.size.rows * cellSize
  if cells ≤ u64Max then
    match checkedAdd cells o.terminal.viewBytes with
    | some total => .ok total
    | none => .error .invalidConfiguration
  else .error .invalidConfiguration

/-- Validate all finite bounds and checked copied-view allocation accounting. -/
def validate (cellSize : Nat) (o : ProjectionOptions) : Except ProjectionError ProjectionOptions :=
  match o.terminal.validate with
  | .error e => .error (.terminal e)
  | .ok _ =>
    if o.programStatusRecords < 64 ∨ o.programStatusRecords > 256 ∨
        o.journalBytes = 0 ∨ o.journalBytes > isizeMax ∨
        o.journalSlots = 0 ∨ o.journalSlots > 1048576 ∨
        o.transferObservers = 0 ∨ o.transferObservers > 1048576 ∨
        o.stagingBytes < o.terminal.feedBytes ∨ o.stagingBytes > isizeMax ∨
        o.stagingSlots = 0 ∨ o.stagingSlots > 1048576 ∨
        o.requestSlots = 0 ∨ o.requestSlots > 1048576 ∨
        o.parkAfter = 0 ∨ o.retryAfter = 0 ∨
        o.parkAfter > seconds (86400 * 365) ∨ o.retryAfter > seconds (86400 * 365) ∨
        o.maxParkAttempts = 0 ∨ o.maxParkAttempts > 100 ∨
        o.maxDeleteAttempts = 0 ∨ o.maxDeleteAttempts > 100 then
      .error .invalidConfiguration
    else
      match o.viewReservation cellSize with
      | .error e => .error e
      | .ok _ => .ok o

/-- Bounded defaults of an authoritative terminal with automatic parking. -/
def new (terminal : TerminalConfig) : ProjectionOptions where
  terminal := terminal
  programStatusRecords := 256
  journalBytes := 1024 * 1024
  journalSlots := 256
  transferObservers := 32
  stagingBytes := 2 * 1024 * 1024
  stagingSlots := 256
  requestSlots := 32
  parkAfter := seconds 60
  retryAfter := seconds 5
  maxParkAttempts := 3
  maxDeleteAttempts := 3

/-- Validation never alters the options it accepts. -/
theorem validate_eq {cellSize : Nat} {o accepted : ProjectionOptions}
    (valid : o.validate cellSize = .ok accepted) : accepted = o := by
  unfold validate at valid
  split at valid
  · contradiction
  split at valid
  · contradiction
  split at valid
  · contradiction
  · exact (Except.ok.inj valid).symm

end ProjectionOptions
end PtyRuntime
