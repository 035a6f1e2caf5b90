import PtyRuntime.Domain.ProgramStatus.Report
import PtyRuntime.Domain.Projection.Options
import PtyRuntime.Hex
import PtyRuntime.Infrastructure.Checkpoint.File

/-! Reclaiming the namespaces of owners that are gone. Other processes share the arena, so
every step on a directory finds whatever is there at that moment, and may fail. -/
namespace PtyRuntime

/-- Finite work admitted for one maintenance pass. -/
structure CheckpointCleanupLimits where
  namespaces : Nat
  entries : Nat
  bytes : Nat
  deriving DecidableEq, Repr

/-- Observed maintenance work. -/
structure CheckpointCleanupReport where
  examinedEntries : Nat := 0
  examinedNamespaces : Nat := 0
  liveNamespaces : Nat := 0
  reclaimedNamespaces : Nat := 0
  reclaimedObjects : Nat := 0
  reclaimedBytes : Nat := 0
  failedNamespaces : Nat := 0
  scanComplete : Bool := false
  abandonedIncomplete : Bool := false
  failure : Option CheckpointError := none
  deriving DecidableEq, Repr

namespace Cleanup

def isAsciiHexLowercase (b : UInt8) : Bool := isAsciiDigit b || ('a'.toUInt8 ≤ b && b ≤ 'f'.toUInt8)

def namespaceName (bytes : Bytes) : Bool :=
  bytes.length = 38 && (ascii "owner-").isPrefixOf bytes && (bytes.drop 6).all isAsciiHexLowercase

/-- `str::strip_suffix`. -/
def stripEnd (ending bytes : Bytes) : Option Bytes :=
  if ending.isSuffixOf bytes then some (bytes.take (bytes.length - ending.length)) else none

def digitValue (b : UInt8) : Nat := if isAsciiDigit b then b.toNat - 48 else b.toNat - 87

/-- `u64::from_str_radix(_, 16)` of lower-case digits; sixteen of them always fit. -/
def radixValue (digits : Bytes) : Nat := digits.foldl (fun value digit => 16 * value + digitValue digit) 0

def objectName (name : Bytes) : Bool :=
  ((stripEnd (ascii ".checkpoint") name).or (stripEnd (ascii ".pending") name)).any fun stem =>
    stem.length = 16 && stem.all isAsciiHexLowercase && radixValue stem ≠ 0

end Cleanup

/-- The texts that a commit formats, `{:016x}.checkpoint` and `{:016x}.pending`. -/
def FileName.text : FileName → Bytes
  | .checkpoint sequence => (hex 16 sequence).map Char.toUInt8 ++ ascii ".checkpoint"
  | .pending sequence => (hex 16 sequence).map Char.toUInt8 ++ ascii ".pending"

namespace Cleanup

/-- One step on a directory of the arena, with its answer. -/
inductive Action where
  | entries (result : Except CheckpointError Unit)
  | next (result : Except CheckpointError (Option Bytes))
  | child (name : Bytes) (result : Except CheckpointError Unit)
  | tryLock (name : Bytes) (result : Except CheckpointError Bool)
  | objects (name : Bytes) (result : Except CheckpointError Unit)
  | nextObject (name : Bytes) (result : Except CheckpointError (Option Bytes))
  | openObject (name object : Bytes) (result : Except CheckpointError Unit)
  | metadata (name object : Bytes) (result : Except CheckpointError Nat)
  | remove (name object : Bytes) (result : Except CheckpointError Unit)
  | removeNamespace (name : Bytes) (result : Except CheckpointError Unit)
  deriving Repr

/-- What the system answers to each step after those that were made so far. -/
structure System where
  entries : List Action → Except CheckpointError Unit
  next : List Action → Except CheckpointError (Option Bytes)
  child : Bytes → List Action → Except CheckpointError Unit
  tryLock : Bytes → List Action → Except CheckpointError Bool
  objects : Bytes → List Action → Except CheckpointError Unit
  nextObject : Bytes → List Action → Except CheckpointError (Option Bytes)
  openObject : Bytes → Bytes → List Action → Except CheckpointError Unit
  metadata : Bytes → Bytes → List Action → Except CheckpointError Nat
  remove : Bytes → Bytes → List Action → Except CheckpointError Unit
  removeNamespace : Bytes → List Action → Except CheckpointError Unit

/-- A pass so far: its report, and the steps it made, kept for the proofs. -/
structure Pass where
  report : CheckpointCleanupReport := {}
  log : List Action := []

namespace Pass

def did (p : Pass) (action : Action) : Pass := { p with log := p.log ++ [action] }

def examine (p : Pass) : Pass :=
  { p with report.examinedEntries := p.report.examinedEntries + 1 }

/-- `report.failure.get_or_insert(error)`. -/
def fail (p : Pass) (error : CheckpointError) : Pass :=
  { p with report.failure := p.report.failure.or (some error) }

/-- `failed`. -/
def failed (p : Pass) (error : CheckpointError) : Pass :=
  ({ p with report.failedNamespaces := p.report.failedNamespaces + 1 } : Pass).fail error

def live (p : Pass) : Pass := { p with report.liveNamespaces := p.report.liveNamespaces + 1 }

def candidate (p : Pass) : Pass := { p with report.examinedNamespaces := p.report.examinedNamespaces + 1 }

def removed (p : Pass) : Pass := { p with report.reclaimedNamespaces := p.report.reclaimedNamespaces + 1 }

def complete (p : Pass) : Pass := { p with report.scanComplete := true }

def incomplete (p : Pass) : Pass := { p with report.abandonedIncomplete := true }

def reclaimed (p : Pass) (bytes : Nat) : Pass :=
  { p with
    report.reclaimedObjects := p.report.reclaimedObjects + 1
    report.reclaimedBytes := p.report.reclaimedBytes + bytes }

end Pass

variable (system : System) (limits : CheckpointCleanupLimits)

/-- One round of the loop of `remove_objects`: the object was removed, or the loop ends. -/
def removeObject (name : Bytes) (p : Pass) : Option (Except CheckpointError Bool) × Pass :=
  match system.nextObject name p.log with
  | .error error => (some (.error error), p.did (.nextObject name (.error error)))
  | .ok none => (some (.ok true), p.did (.nextObject name (.ok none)))
  | .ok (some object) =>
    let p := (p.did (.nextObject name (.ok (some object)))).examine
    if !isUtf8 object then (some (.error .unavailable), p)
    else if !objectName object then (some (.error .unavailable), p)
    else
      match system.openObject name object p.log with
      | .error error => (some (.error error), p.did (.openObject name object (.error error)))
      | .ok () =>
        let p := p.did (.openObject name object (.ok ()))
        match system.metadata name object p.log with
        | .error error => (some (.error error), p.did (.metadata name object (.error error)))
        | .ok bytes =>
          let p := p.did (.metadata name object (.ok bytes))
          if bytes > limits.bytes - p.report.reclaimedBytes then (some (.ok false), p)
          else
            match system.remove name object p.log with
            | .error error => (some (.error error), p.did (.remove name object (.error error)))
            | .ok () => (none, (p.did (.remove name object (.ok ()))).reclaimed bytes)

theorem removeObject_examined {name : Bytes} {p p' : Pass} {ended : Option (Except CheckpointError Bool)}
    (round : removeObject system limits name p = (ended, p')) :
    p.report.examinedEntries ≤ p'.report.examinedEntries ∧
      (ended = none → p.report.examinedEntries < p'.report.examinedEntries) := by
  unfold removeObject at round
  dsimp only at round
  repeat' split at round
  all_goals
    cases round
    simp [Pass.did, Pass.examine, Pass.reclaimed]

/-- The loop of `remove_objects`. -/
def removeLoop (name : Bytes) (p : Pass) : Except CheckpointError Bool × Pass :=
  if p.report.examinedEntries < limits.entries then
    match round : removeObject system limits name p with
    | (some result, p') => (result, p')
    | (none, p') => removeLoop name p'
  else (.ok false, p)
  termination_by limits.entries - p.report.examinedEntries
  decreasing_by
    have examined := (removeObject_examined system limits round).2 rfl
    omega

def removeObjects (name : Bytes) (p : Pass) : Except CheckpointError Bool × Pass :=
  match system.objects name p.log with
  | .error error => (.error error, p.did (.objects name (.error error)))
  | .ok () => removeLoop system limits name (p.did (.objects name (.ok ())))

theorem removeLoop_examined (name : Bytes) (p : Pass) :
    p.report.examinedEntries ≤ (removeLoop system limits name p).2.report.examinedEntries := by
  fun_induction removeLoop system limits name p with
  | case1 p _ result p' round => exact (removeObject_examined system limits round).1
  | case2 p _ p' round ih => exact Nat.le_trans (removeObject_examined system limits round).1 ih
  | case3 p _ => exact Nat.le_refl _

/-- The body of `reclaim`'s loop for one candidate namespace. -/
def inspect (name : Bytes) (p : Pass) : Pass :=
  match system.child name p.log with
  | .error .notFound => p.did (.child name (.error .notFound))
  | .error error => (p.did (.child name (.error error))).failed error
  | .ok () =>
    let p := p.did (.child name (.ok ()))
    match system.tryLock name p.log with
    | .ok false => (p.did (.tryLock name (.ok false))).live
    | .error error => (p.did (.tryLock name (.error error))).failed error
    | .ok true =>
      match removeObjects system limits name (p.did (.tryLock name (.ok true))) with
      | (.ok true, p) =>
        match system.removeNamespace name p.log with
        | .ok () => (p.did (.removeNamespace name (.ok ()))).removed
        -- the owner's own cleanup may unlink the namespace first
        | .error .notFound => p.did (.removeNamespace name (.error .notFound))
        | .error error => (p.did (.removeNamespace name (.error error))).incomplete.failed error
      | (.ok false, p) => p.incomplete
      | (.error error, p) => p.incomplete.failed error

theorem removeObjects_examined (name : Bytes) (p : Pass) :
    p.report.examinedEntries ≤ (removeObjects system limits name p).2.report.examinedEntries := by
  unfold removeObjects
  split
  · exact Nat.le_refl _
  · exact removeLoop_examined system limits name (p.did (.objects name (.ok ())))

theorem inspect_examined (name : Bytes) (p : Pass) :
    p.report.examinedEntries ≤ (inspect system limits name p).report.examinedEntries := by
  unfold inspect
  dsimp only
  split
  · exact Nat.le_refl _
  · exact Nat.le_refl _
  · split
    · exact Nat.le_refl _
    · exact Nat.le_refl _
    · have examined := removeObjects_examined system limits name
        ((p.did (.child name (.ok ()))).did (.tryLock name (.ok true)))
      split
      all_goals
        rename_i outcome
        rw [outcome] at examined
      · split <;> exact examined
      · exact examined
      · exact examined

/-- The loop of `reclaim`. -/
def reclaimLoop (p : Pass) : Except CheckpointError CheckpointCleanupReport × Pass :=
  if p.report.examinedEntries < limits.entries ∧ p.report.examinedNamespaces < limits.namespaces then
    match system.next p.log with
    | .error error => (.error error, p.did (.next (.error error)))
    | .ok none =>
      let p := (p.did (.next (.ok none))).complete
      (.ok p.report, p)
    | .ok (some name) =>
      if !namespaceName name then reclaimLoop ((p.did (.next (.ok (some name)))).examine.fail .unavailable)
      else reclaimLoop (inspect system limits name (p.did (.next (.ok (some name)))).examine.candidate)
  else (.ok p.report, p)
  termination_by limits.entries - p.report.examinedEntries
  decreasing_by
    · simp only [Pass.fail, Pass.examine, Pass.did]
      omega
    · have examined := inspect_examined system limits name (p.did (.next (.ok (some name)))).examine.candidate
      simp only [Pass.candidate, Pass.examine, Pass.did] at examined ⊢
      omega

/-- `reclaim`, with the pass that it made. -/
def reclaim : Except CheckpointError CheckpointCleanupReport × Pass :=
  match system.entries [] with
  | .error error => (.error error, Pass.did {} (.entries (.error error)))
  | .ok () => reclaimLoop system limits (Pass.did {} (.entries (.ok ())))

end Cleanup
end PtyRuntime
