import PtyRuntime.Domain.Process

/-! Engine-neutral terminal values: ordered control generations, validated
dimensions, resource limits and restoration milestones. -/
namespace PtyRuntime

inductive TerminalError where
  | invalidConfiguration
  | budgetExceeded
  | engineFailure
  | corruptCheckpoint
  | incompatibleCheckpoint
  | staleControl
  | historyIncomplete
  | unsupported
  deriving DecidableEq, Repr

/-- How many ordered resizes the OS PTY and the terminal model have both applied. -/
structure ControlGeneration where
  value : Nat
  deriving DecidableEq, Repr

namespace ControlGeneration

/-- A model that has not applied any resize. -/
def initial : ControlGeneration := ⟨0⟩

/-- The only legal successor, or none once the counter is exhausted. -/
def next (g : ControlGeneration) : Option ControlGeneration := (checkedAdd g.value 1).map mk

theorem next_eq_some {g h : ControlGeneration} :
    g.next = some h ↔ g.value + 1 ≤ u64Max ∧ h.value = g.value + 1 := by
  unfold next checkedAdd
  split <;> cases h <;> simp <;> omega

end ControlGeneration

/-- Character-cell dimensions as `TerminalSize::new` admits them. -/
structure TerminalSize where
  cols : Nat
  rows : Nat
  positive : 0 < cols ∧ 0 < rows
  narrow : cols ≤ 65535 ∧ rows ≤ 65535
  bounded : cols * rows ≤ 1048576
  deriving DecidableEq, Repr

/-- A single cell. -/
def TerminalSize.single : TerminalSize := ⟨1, 1, by decide, by decide, by decide⟩

/-- Explicit bounds; native history accounting can round to page granularity. -/
structure TerminalConfig where
  size : TerminalSize
  historyBytes : Nat
  continuationBytes : Nat
  replyBytes : Nat
  checkpointBytes : Nat
  nativeBytes : Nat
  viewBytes : Nat
  feedBytes : Nat
  deriving DecidableEq, Repr

/-- Bounded defaults for an authoritative terminal at the supplied dimensions. -/
def TerminalConfig.new (size : TerminalSize) : TerminalConfig where
  size := size
  historyBytes := 1024 * 1024
  continuationBytes := 65536
  replyBytes := 4096
  checkpointBytes := 8 * 1024 * 1024
  nativeBytes := 8 * 1024 * 1024
  viewBytes := 1024 * 1024
  feedBytes := 4096

/-- Validate allocation limits before constructing an engine. -/
def TerminalConfig.validate (c : TerminalConfig) : Except TerminalError TerminalConfig :=
  if c.nativeBytes = 0 ∨ c.nativeBytes > 1024 * 1024 * 1024 ∨
      c.viewBytes = 0 ∨ c.viewBytes > 64 * 1024 * 1024 ∨
      c.historyBytes > 256 * 1024 * 1024 ∨
      c.continuationBytes = 0 ∨ c.continuationBytes > 1024 * 1024 ∨
      c.replyBytes = 0 ∨ c.replyBytes > 1024 * 1024 ∨
      c.checkpointBytes = 0 ∨ c.checkpointBytes > 512 * 1024 * 1024 ∨
      c.feedBytes = 0 ∨ c.feedBytes > 1024 * 1024 then
    .error .invalidConfiguration
  else .ok c

/-- Engine-neutral restoration milestone; usable state is not complete history. -/
inductive RestorationProgress where
  | usable
  | complete
  | usableWithSkippedHistory (skippedPages : Nat)
  | finishedWithSkippedHistory (skippedPages : Nat)
  deriving DecidableEq, Repr

namespace RestorationProgress

/-- Whether the source has been fully consumed, including skipped history. -/
def isFinished : RestorationProgress → Bool
  | .complete | .finishedWithSkippedHistory _ => true
  | .usable | .usableWithSkippedHistory _ => false

/-- History pages validated but not applied in this restoration. -/
def skippedPages : RestorationProgress → Nat
  | .usable | .complete => 0
  | .usableWithSkippedHistory pages | .finishedWithSkippedHistory pages => pages

end RestorationProgress

/-- Ordering and compatibility metadata kept separate from opaque encoded bytes. -/
structure CheckpointDescriptor where
  compatibility : String
  processed : ReplayCursor
  controlGeneration : ControlGeneration
  deriving DecidableEq, Repr

/-- Owned opaque terminal state. `capacity` is what its byte buffer reports. -/
structure TerminalCheckpoint where
  descriptor : CheckpointDescriptor
  bytes : Bytes
  capacity : Nat
  deriving DecidableEq, Repr

end PtyRuntime
