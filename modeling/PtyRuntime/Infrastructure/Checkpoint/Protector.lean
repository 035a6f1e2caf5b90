import PtyRuntime.Aead
import PtyRuntime.LittleEndian
import PtyRuntime.Domain.Checkpoint
import PtyRuntime.Domain.Projection.Options

/-! XChaCha20-Poly1305 under an owner-lifetime key, with a fresh nonce for each checkpoint.
The ciphertext, the tag and the nonce follow one another in the protected bytes. -/
namespace PtyRuntime

abbrev XChaCha20Poly1305 (κ : Type) := Aead κ 24 16

/-- `str::as_bytes`. -/
def asBytes (s : String) : Bytes := s.toByteArray.data.toList

/-- A cipher's key and the greatest plaintext, as `new` admits it. -/
structure CheckpointProtector (κ : Type) where
  key : κ
  maxBytes : Nat
  bounded : 0 < maxBytes ∧ maxBytes ≤ 512 * 1024 * 1024

/-- What the system answers to `protect`: the random nonce, and whether the ciphertext's
buffer could grow. -/
structure ProtectAnswers where
  nonce : Option (FixedBytes 24)
  reserved : Bool

namespace CheckpointProtector

variable {κ : Type}

/-- The associated data: every field of the identity, the numbers as 64-bit words. -/
def metadata (key : CheckpointKey) (d : CheckpointDescriptor) : Except CheckpointError Bytes :=
  if key.lifetime ≠ d.processed.lifetime then .error .invalidConfiguration
  else
    let compatibility := asBytes d.compatibility
    .ok (asBytes "pty-checkpoint-xchacha-v1" ++
      ([key.lifetime.owner, key.lifetime.sequence, key.generation, d.processed.offset,
        d.controlGeneration.value, compatibility.length].flatMap (LittleEndian.bytesOf 8) ++ compatibility))

def protectedSizeLimit (p : CheckpointProtector κ) (plaintextBytes : Nat) : Except CheckpointError Nat :=
  if plaintextBytes > p.maxBytes then .error .capacityExceeded
  else (checkedAdd plaintextBytes 40).elim (.error .capacityExceeded) .ok

def protect (p : CheckpointProtector κ) (cipher : XChaCha20Poly1305 κ) (key : CheckpointKey)
    (checkpoint : TerminalCheckpoint) (answers : ProtectAnswers) : Except CheckpointError ProtectedCheckpoint :=
  if checkpoint.bytes.length > p.maxBytes then .error .capacityExceeded
  else
    match metadata key checkpoint.descriptor with
    | .error error => .error error
    | .ok aad =>
      match answers.nonce with
      | none => .error .entropyUnavailable
      | some nonce =>
        match cipher.encrypt p.key nonce aad checkpoint.bytes with
        | none => .error .authenticationFailed
        | some (ciphertext, tag) =>
          if answers.reserved then .ok ⟨key, checkpoint.descriptor, ciphertext ++ tag.val ++ nonce.val⟩
          else .error .capacityExceeded

/-- `&bytes[start..]`, which panics past the end. -/
def sliceFrom (bytes : Bytes) (start : Nat) : Option Bytes :=
  if start ≤ bytes.length then some (bytes.drop start) else none

/-- `copy_from_slice` into the nonce, which panics when the lengths differ. -/
def copyNonce (slice : Bytes) : Option (FixedBytes 24) :=
  if length : slice.length = 24 then some ⟨slice, length⟩ else none

/-- `open`; no answer is a panic. `capacity` is what the ciphertext's buffer reports: the
plaintext is decrypted in place and keeps it. -/
def openCheckpoint (p : CheckpointProtector κ) (cipher : XChaCha20Poly1305 κ) (key : CheckpointKey)
    (descriptor : CheckpointDescriptor) (checkpoint : ProtectedCheckpoint) (capacity : Nat) :
    Option (Except CheckpointError TerminalCheckpoint) :=
  if checkpoint.key ≠ key ∨ checkpoint.descriptor ≠ descriptor then some (.error .authenticationFailed)
  else
    let ciphertext := checkpoint.ciphertext
    if ciphertext.length < 40 then some (.error .authenticationFailed)
    else
      (checkedSub ciphertext.length 40).bind fun plaintext =>
        if plaintext > p.maxBytes then some (.error .capacityExceeded)
        else
          match metadata key descriptor with
          | .error error => some (.error error)
          | .ok aad =>
            (checkedSub ciphertext.length 24).bind fun encrypted =>
              (sliceFrom ciphertext encrypted).bind fun tail =>
                (copyNonce tail).map fun nonce =>
                  match cipher.decrypt p.key nonce aad (ciphertext.take encrypted) with
                  | none => .error .authenticationFailed
                  | some bytes => .ok ⟨descriptor, bytes, capacity⟩

end CheckpointProtector
end PtyRuntime
