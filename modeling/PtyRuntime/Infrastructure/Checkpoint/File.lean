import PtyRuntime.Infrastructure.Checkpoint.Filesystem

/-! The private owner-lifetime disk store. Every operation holds the store's mutex from
its first look at the state to its end, so it is one step here. -/
namespace PtyRuntime

structure FileEntry where
  reference : CheckpointRef
  descriptor : CheckpointDescriptor
  name : FileName
  deriving DecidableEq, Repr

structure FileCheckpointStore where
  directory : Directory
  limit : Nat
  entries : List FileEntry
  committed : Nat
  inflight : Nat
  abandoned : Nat
  sequence : Nat
  orphans : List FileName

/-- Storage occupancy including reservations for incomplete writes. -/
structure CheckpointCapacity where
  limitBytes : Nat
  committedBytes : Nat
  inflightBytes : Nat
  abandonedBytes : Nat
  deriving DecidableEq, Repr

/-- What became of the temporary file of a commit. -/
inductive TempCleanup where
  | unneeded
  | removed
  | failed
  deriving DecidableEq, Repr

/-- What the system answers to the steps of one commit. -/
structure CommitAnswers where
  entropy : Option Nat
  opening : OpenAnswers
  write : Option (Nat × Fault)
  sync : Option Fault
  rename : Option Fault
  unlink : Option Fault
  deriving DecidableEq, Repr

/-- What the system answers to the steps of one read. -/
structure ReadAnswers where
  opening : OpenAnswers
  metadata : Option Fault
  readExact : Option Fault
  extra : Option Fault
  deriving DecidableEq, Repr

namespace FileCheckpointStore

def fromDirectory (directory : Directory) (limit : Nat) : FileCheckpointStore :=
  { directory, limit, entries := [], committed := 0, inflight := 0, abandoned := 0, sequence := 0,
    orphans := [] }

def lookup (s : FileCheckpointStore) (key : CheckpointKey) : Option FileEntry :=
  s.entries.find? (·.reference.key = key)

/-- Write, sync and rename one temporary file. -/
def publish (d : Directory) (temp name : FileName) (bytes : Bytes) (answers : CommitAnswers) :
    Except CheckpointError Unit × Directory :=
  match d.create temp answers.opening with
  | (.error error, d) => (.error error, d)
  | (.ok (), d) =>
    match d.write temp bytes answers.write with
    | (.error error, d) => (.error error, d)
    | (.ok (), d) =>
      match answers.sync with
      | some fault => (.error (DiskError.fault fault).map, d)
      | none => d.rename temp name answers.rename

/-- `commit_with_cleanup`. The second answer tells what became of the temporary file. -/
def commit (s : FileCheckpointStore) (checkpoint : ProtectedCheckpoint) (answers : CommitAnswers) :
    Except CheckpointError CheckpointRef × TempCleanup × FileCheckpointStore :=
  if (s.lookup checkpoint.key).isSome then (.error .alreadyExists, .unneeded, s)
  else
    let bytes := checkpoint.ciphertext.length
    if bytes = 0 then (.error .invalidConfiguration, .unneeded, s)
    else if s.limit - (s.committed + s.abandoned) < bytes then (.error .capacityExceeded, .unneeded, s)
    else
      match checkedAdd s.sequence 1 with
      | none => (.error .capacityExceeded, .unneeded, s)
      | some sequence =>
        let s := { s with sequence }
        match answers.entropy with
        | none => (.error .entropyUnavailable, .unneeded, s)
        | some objectId =>
          let name := FileName.checkpoint sequence
          let temp := FileName.pending sequence
          let s := { s with inflight := bytes }
          let (outcome, directory) := publish s.directory temp name checkpoint.ciphertext answers
          let s := { s with directory, inflight := 0 }
          match outcome with
          | .error error =>
            match s.directory.remove temp answers.unlink with
            | (.ok (), directory) => (.error error, .removed, { s with directory })
            | (.error _, directory) =>
              (.error error, .failed,
                { s with directory, abandoned := s.abandoned + bytes, orphans := s.orphans ++ [temp] })
          | .ok () =>
            let reference : CheckpointRef := { key := checkpoint.key, bytes, objectId }
            (.ok reference, .unneeded,
              { s with
                entries := { reference, descriptor := checkpoint.descriptor, name } :: s.entries
                committed := s.committed + bytes })

def read (s : FileCheckpointStore) (reference : CheckpointRef) (maxBytes : Nat) (answers : ReadAnswers) :
    Except CheckpointError ProtectedCheckpoint :=
  if maxBytes < reference.bytes then .error .capacityExceeded
  else
    match (s.lookup reference.key).filter (·.reference = reference) with
    | none => .error .notFound
    | some entry =>
      match s.directory.openRead entry.name answers.opening with
      | .error error => .error error
      | .ok content =>
        match answers.metadata with
        | some fault => .error (DiskError.fault fault).map
        | none =>
          if content.length ≠ reference.bytes then .error .unavailable
          else
            match answers.readExact with
            | some fault => .error (DiskError.fault fault).map
            | none =>
              match answers.extra with
              | some fault => .error (DiskError.fault fault).map
              | none =>
                if (content.drop reference.bytes).length ≠ 0 then .error .unavailable
                else .ok ⟨reference.key, entry.descriptor, content.take reference.bytes⟩

def delete (s : FileCheckpointStore) (reference : CheckpointRef) (unlink : Option Fault) :
    Except CheckpointError Unit × FileCheckpointStore :=
  match s.lookup reference.key with
  | none => (.ok (), s)
  | some entry =>
    if entry.reference ≠ reference then (.error .notFound, s)
    else
      match s.directory.remove entry.name unlink with
      | (.error error, directory) => (.error error, { s with directory })
      | (.ok (), directory) =>
        (.ok (),
          { s with
            directory
            entries := s.entries.filter (·.reference.key ≠ reference.key)
            committed := s.committed - reference.bytes })

def capacity (s : FileCheckpointStore) : CheckpointCapacity :=
  { limitBytes := s.limit, committedBytes := s.committed, inflightBytes := s.inflight,
    abandonedBytes := s.abandoned }

end FileCheckpointStore
end PtyRuntime
