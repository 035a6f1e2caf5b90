import PtyRuntime.Infrastructure.Checkpoint.File

/-! What a checkpoint store is for: a map from key to committed checkpoint that is
written once per key, within a byte limit that abandoned files share. -/
namespace PtyRuntime

structure Stored where
  reference : CheckpointRef
  checkpoint : ProtectedCheckpoint
  deriving DecidableEq, Repr

structure BoundedMap where
  limit : Nat
  stored : CheckpointKey → Option Stored
  committed : Nat
  abandoned : Nat

namespace BoundedMap

def empty (limit : Nat) : BoundedMap := { limit, stored := fun _ => none, committed := 0, abandoned := 0 }

inductive Operation where
  | commit (checkpoint : ProtectedCheckpoint)
  | read (reference : CheckpointRef) (maxBytes : Nat)
  | delete (reference : CheckpointRef)
  | capacity
  deriving DecidableEq, Repr

inductive Reply where
  | commit (result : Except CheckpointError CheckpointRef) (cleanup : TempCleanup)
  | read (result : Except CheckpointError ProtectedCheckpoint)
  | delete (result : Except CheckpointError Unit)
  | capacity (capacity : CheckpointCapacity)

/-- Everything an operation may answer and change. -/
inductive Step (m : BoundedMap) : Operation → Reply → BoundedMap → Prop
  | committed {checkpoint : ProtectedCheckpoint} {objectId : Nat}
      (fresh : m.stored checkpoint.key = none) (some : checkpoint.ciphertext ≠ [])
      (fits : m.committed + m.abandoned + checkpoint.ciphertext.length ≤ m.limit) :
      Step m (.commit checkpoint)
        (.commit (.ok ⟨objectId, checkpoint.key, checkpoint.ciphertext.length⟩) .unneeded)
        { m with
          stored := Function.update m.stored checkpoint.key
            (Option.some ⟨⟨objectId, checkpoint.key, checkpoint.ciphertext.length⟩, checkpoint⟩)
          committed := m.committed + checkpoint.ciphertext.length }
  | refused {checkpoint : ProtectedCheckpoint} {error : CheckpointError} {cleanup : TempCleanup}
      (kept : cleanup ≠ .failed) : Step m (.commit checkpoint) (.commit (.error error) cleanup) m
  | leaked {checkpoint : ProtectedCheckpoint} {error : CheckpointError}
      (fresh : m.stored checkpoint.key = none)
      (fits : m.committed + m.abandoned + checkpoint.ciphertext.length ≤ m.limit) :
      Step m (.commit checkpoint) (.commit (.error error) .failed)
        { m with abandoned := m.abandoned + checkpoint.ciphertext.length }
  | read {stored : Stored} {maxBytes : Nat} (held : m.stored stored.reference.key = some stored)
      (within : stored.reference.bytes ≤ maxBytes) :
      Step m (.read stored.reference maxBytes) (.read (.ok stored.checkpoint)) m
  | unread {reference : CheckpointRef} {maxBytes : Nat} {error : CheckpointError} :
      Step m (.read reference maxBytes) (.read (.error error)) m
  | deleted {stored : Stored} (held : m.stored stored.reference.key = some stored) :
      Step m (.delete stored.reference) (.delete (.ok ()))
        { m with
          stored := Function.update m.stored stored.reference.key none
          committed := m.committed - stored.reference.bytes }
  | absent {reference : CheckpointRef} (absent : m.stored reference.key = none) :
      Step m (.delete reference) (.delete (.ok ())) m
  | undeleted {reference : CheckpointRef} {error : CheckpointError}
      (held : m.stored reference.key ≠ none) : Step m (.delete reference) (.delete (.error error)) m
  | capacity : Step m .capacity (.capacity ⟨m.limit, m.committed, 0, m.abandoned⟩) m

inductive Steps : BoundedMap → List (Operation × Reply) → BoundedMap → Prop
  | nil (m : BoundedMap) : Steps m [] m
  | cons {m m' m'' : BoundedMap} {operation : Operation} {reply : Reply}
      {rest : List (Operation × Reply)} (step : Step m operation reply m') (steps : Steps m' rest m'') :
      Steps m ((operation, reply) :: rest) m''

variable {m m' : BoundedMap}

/-- A failed commit charges its ciphertext exactly when its file was left behind. -/
theorem failed_commit {checkpoint : ProtectedCheckpoint} {error : CheckpointError} {cleanup : TempCleanup}
    (step : Step m (.commit checkpoint) (.commit (.error error) cleanup) m') :
    m' = { m with abandoned := m.abandoned + if cleanup = .failed then checkpoint.ciphertext.length else 0 } := by
  cases step with
  | refused kept => rw [if_neg kept, Nat.add_zero]
  | leaked _ _ => rfl

/-- A committed key is never written again. -/
theorem commit_fresh {checkpoint : ProtectedCheckpoint} {reference : CheckpointRef} {cleanup : TempCleanup}
    (step : Step m (.commit checkpoint) (.commit (.ok reference) cleanup) m') :
    m.stored checkpoint.key = none ∧ m' = { m with
      stored := Function.update m.stored checkpoint.key (some ⟨reference, checkpoint⟩)
      committed := m.committed + checkpoint.ciphertext.length } := by
  cases step with
  | committed fresh _ _ => exact ⟨fresh, rfl⟩

/-- A read answers what was committed under the exact reference. -/
theorem read_current {reference : CheckpointRef} {maxBytes : Nat} {checkpoint : ProtectedCheckpoint}
    (step : Step m (.read reference maxBytes) (.read (.ok checkpoint)) m') :
    m.stored reference.key = some ⟨reference, checkpoint⟩ ∧ m' = m := by
  cases step with
  | read held _ => exact ⟨held, rfl⟩

/-- A stale reference deletes nothing. -/
theorem delete_stale {reference : CheckpointRef} {result : Except CheckpointError Unit} {stored : Stored}
    (held : m.stored reference.key = some stored) (stale : stored.reference ≠ reference)
    (step : Step m (.delete reference) (.delete result) m') :
    m' = m ∧ ∃ error, result = .error error := by
  cases step with
  | deleted current =>
    obtain rfl := Option.some.inj (held.symm.trans current)
    exact absurd rfl stale
  | absent none => cases none.symm.trans held
  | undeleted _ => exact ⟨rfl, _, rfl⟩

/-- A failed delete changes nothing. -/
theorem delete_failed {reference : CheckpointRef} {error : CheckpointError}
    (step : Step m (.delete reference) (.delete (.error error)) m') : m' = m := by
  cases step with
  | undeleted _ => rfl

/-- Deleting an absent key succeeds and changes nothing. -/
theorem delete_absent {reference : CheckpointRef} {result : Except CheckpointError Unit}
    (absent : m.stored reference.key = none) (step : Step m (.delete reference) (.delete result) m') :
    m' = m ∧ result = .ok () := by
  cases step with
  | deleted held => cases absent.symm.trans held
  | absent _ => exact ⟨rfl, rfl⟩
  | undeleted held => exact absurd absent held

/-- Only deleting its very reference takes a stored checkpoint away. -/
theorem Step.keeps {operation : Operation} {reply : Reply} (step : Step m operation reply m') {key : CheckpointKey}
    {stored : Stored} (held : m.stored key = some stored) (kept : operation ≠ .delete stored.reference) :
    m'.stored key = some stored := by
  cases step with
  | @committed checkpoint _ fresh _ _ =>
    have other : key ≠ checkpoint.key := by
      rintro rfl
      cases fresh.symm.trans held
    exact (Function.update_of_ne other _ _).trans held
  | @deleted gone present =>
    have other : key ≠ gone.reference.key := by
      rintro rfl
      obtain rfl := Option.some.inj (held.symm.trans present)
      exact kept rfl
    exact (Function.update_of_ne other _ _).trans held
  | refused | leaked | read | unread | absent | undeleted | capacity => exact held

theorem Steps.limit {trace : List (Operation × Reply)} (steps : Steps m trace m') : m'.limit = m.limit := by
  induction steps with
  | nil m => rfl
  | cons step _ ih =>
    rw [ih]
    cases step <;> rfl

end BoundedMap
end PtyRuntime
