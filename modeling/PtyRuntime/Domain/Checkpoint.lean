import PtyRuntime.Domain.Terminal

/-! Lifetime-bound protected checkpoint storage values. -/
namespace PtyRuntime

/-- Immutable logical checkpoint identity; generations never repeat per lifetime. -/
structure CheckpointKey where
  lifetime : SessionLifetime
  generation : Nat
  deriving DecidableEq, Repr

/-- Authenticated encrypted payload. -/
structure ProtectedCheckpoint where
  key : CheckpointKey
  descriptor : CheckpointDescriptor
  ciphertext : Bytes
  deriving DecidableEq, Repr

/-- Immutable committed identity with a bounded encoded length. -/
structure CheckpointRef where
  objectId : Nat
  key : CheckpointKey
  bytes : Nat
  deriving DecidableEq, Repr

end PtyRuntime
