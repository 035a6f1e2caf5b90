import PtyRuntime.Domain.Identity

/-! Stable process boundary facts: failures, the collected exit and the drain, and the
budgets of one process. Durations are counted in nanoseconds. -/
namespace PtyRuntime

inductive ProcessError where
  | invalidCommand
  | outsideRoots
  | capacity
  | closed
  | permissionDenied
  | notFound
  | timeout
  | unsupported
  | io
  | internal
  deriving DecidableEq, Repr

/-- Actual status collected from the owned child, never inferred from a timeout. -/
inductive ExitStatus where
  | code (value : Int)
  | signal (value : Int)
  deriving DecidableEq, Repr

/-- How the reader completed, independently of actual child exit. -/
inductive DrainOutcome where
  | eof
  | truncated
  | failed (error : ProcessError)
  deriving DecidableEq, Repr

/-- Acknowledgement for one admitted input chunk. -/
structure WriteOutcome where
  written : Nat
  error : Option ProcessError
  deriving DecidableEq, Repr

/-- The answer of an output callback to the reader. -/
inductive OutputAcceptance where
  | accepted
  | backpressure
  | closed
  deriving DecidableEq, Repr

def seconds (n : Nat) : Nat := n * 1000000000

/-- Explicit per-process budgets and lifecycle deadlines for an adapter. -/
structure ProcessLimits where
  inputSlots : Nat := 16
  inputBytes : Nat := 65536
  inputChunk : Nat := 4096
  readChunk : Nat := 4096
  readerStackBytes : Nat := 128 * 1024
  terminateGrace : Nat := 250000000
  drainTimeout : Nat := 250000000
  writeTimeout : Nat := seconds 5
  deriving DecidableEq, Repr

/-- Reject zero or inconsistent budgets before starting workers or children. -/
def ProcessLimits.validate (l : ProcessLimits) : Except ProcessError Unit :=
  if l.inputSlots = 0 ∨ l.inputChunk = 0 ∨ l.inputBytes < l.inputChunk ∨ l.readChunk = 0 ∨
      l.readChunk > 65536 ∨ l.readerStackBytes < 65536 ∨ l.writeTimeout = 0 ∨ l.drainTimeout = 0 ∨
      l.terminateGrace > seconds 86400 ∨ l.drainTimeout > seconds 86400 ∨
      l.writeTimeout > seconds 86400 ∨ l.readerStackBytes > 8 * 1024 * 1024 then
    .error .capacity
  else .ok ()

end PtyRuntime
