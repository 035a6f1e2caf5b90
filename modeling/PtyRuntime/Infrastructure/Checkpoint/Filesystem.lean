import PtyRuntime.Domain.Checkpoint
import PtyRuntime.Domain.Projection.Options
import Mathlib.Logic.Function.Basic

/-! The private directory of one store. Nobody else writes it, so a name is missing or
taken as the store's own steps left it; any step may fail for a reason of the system. -/
namespace PtyRuntime

/-- The two file names of one commit, formatted from its sequence number. -/
inductive FileName where
  | checkpoint (sequence : Nat)
  | pending (sequence : Nat)
  deriving DecidableEq, Repr

/-- Reasons outside the directory: no space or quota left, or any other. -/
inductive Fault where
  | noSpace
  | other
  deriving DecidableEq, Repr

/-- `io::Error` as far as it is told apart. -/
inductive DiskError where
  | fault (fault : Fault)
  | notFound
  | alreadyExists
  deriving DecidableEq, Repr

/-- The source's `map`. -/
def DiskError.map : DiskError → CheckpointError
  | .fault .noSpace => .capacityExceeded
  | .notFound => .notFound
  | .alreadyExists => .alreadyExists
  | .fault .other => .unavailable

/-- What the metadata of a file just opened shows. -/
inductive Metadata where
  | failed (fault : Fault)
  | foreign
  | owned
  deriving DecidableEq, Repr

structure OpenAnswers where
  openat : Option Fault
  metadata : Metadata
  deriving DecidableEq, Repr

/-- The regular files by name. -/
abbrev Directory := FileName → Option Bytes

namespace Directory

def checkMetadata : Metadata → Except CheckpointError Unit
  | .failed fault => .error (DiskError.fault fault).map
  | .foreign => .error .unavailable
  | .owned => .ok ()

/-- `open` for writing, which creates the file exclusively. -/
def create (d : Directory) (name : FileName) (answers : OpenAnswers) :
    Except CheckpointError Unit × Directory :=
  match answers.openat with
  | some fault => (.error (DiskError.fault fault).map, d)
  | none =>
    if (d name).isSome then (.error DiskError.alreadyExists.map, d)
    else (checkMetadata answers.metadata, Function.update d name (some []))

/-- `open` for reading. -/
def openRead (d : Directory) (name : FileName) (answers : OpenAnswers) : Except CheckpointError Bytes :=
  match answers.openat with
  | some fault => .error (DiskError.fault fault).map
  | none =>
    match d name with
    | none => .error DiskError.notFound.map
    | some content => (checkMetadata answers.metadata).map fun _ => content

/-- `write_all`, which may fail after part of the bytes. -/
def write (d : Directory) (name : FileName) (bytes : Bytes) (failure : Option (Nat × Fault)) :
    Except CheckpointError Unit × Directory :=
  let before := (d name).getD []
  match failure with
  | some (count, fault) =>
    (.error (DiskError.fault fault).map, Function.update d name (some (before ++ bytes.take count)))
  | none => (.ok (), Function.update d name (some (before ++ bytes)))

def rename (d : Directory) (old new : FileName) (failure : Option Fault) :
    Except CheckpointError Unit × Directory :=
  match failure with
  | some fault => (.error (DiskError.fault fault).map, d)
  | none =>
    match d old with
    | none => (.error DiskError.notFound.map, d)
    | some content => (.ok (), Function.update (Function.update d old none) new (some content))

/-- `unlinkat`. -/
def unlink (d : Directory) (name : FileName) (failure : Option Fault) :
    Except DiskError Unit × Directory :=
  match failure with
  | some fault => (.error (.fault fault), d)
  | none => if (d name).isSome then (.ok (), Function.update d name none) else (.error .notFound, d)

/-- A missing file counts as removed. -/
def remove (d : Directory) (name : FileName) (failure : Option Fault) :
    Except CheckpointError Unit × Directory :=
  match d.unlink name failure with
  | (.ok (), d) => (.ok (), d)
  | (.error error, d) => if error ≠ .notFound then (.error error.map, d) else (.ok (), d)

end Directory
end PtyRuntime
