import PtyRuntime.Application.Projection.Io
import PtyRuntime.Infrastructure.Checkpoint.FileLaws
import PtyRuntime.Infrastructure.Checkpoint.ProtectorLaws

/-! The blocking jobs on the protector and the file store: what a commit publishes a read
gives back, and nothing else opens. -/
namespace PtyRuntime
open FileCheckpointStore CheckpointProtector

variable {κ : Type}

/-- `commit_job` on these adapters, with what it leaves of the store. -/
def commitStored (p : CheckpointProtector κ) (cipher : XChaCha20Poly1305 κ) (s : FileCheckpointStore)
    (key : CheckpointKey) (checkpoint : TerminalCheckpoint) (descriptor : CheckpointDescriptor) (protectedMax : Nat)
    (answers : ProtectAnswers) (disk : CommitAnswers) : CommitOutcome × FileCheckpointStore :=
  match p.protect cipher key checkpoint answers with
  | .error error => (.rejected (.storage error), s)
  | .ok sealed =>
    if sealed.key ≠ key ∨ sealed.descriptor ≠ descriptor ∨ sealed.ciphertext = [] ∨
        sealed.ciphertext.length > protectedMax then (.rejected .invalidConfiguration, s)
    else
      match s.commit sealed disk with
      | (.error error, _, s) => (.rejected (.storage error), s)
      | (.ok reference, _, s) =>
        if reference.key ≠ key ∨ reference.bytes ≠ sealed.ciphertext.length then
          (.uncertain .invalidConfiguration, s)
        else (.published reference, s)

/-- `read_job` on these adapters; no answer is a panic. The store reads into
`vec![0; reference.bytes]`, whose capacity is its length. -/
def readStored (p : CheckpointProtector κ) (cipher : XChaCha20Poly1305 κ) (s : FileCheckpointStore)
    (reference : CheckpointRef) (descriptor : CheckpointDescriptor) (protectedMax plaintextMax : Nat)
    (disk : ReadAnswers) : Option (Except ProjectionError TerminalCheckpoint) :=
  match s.read reference protectedMax disk with
  | .error error => some (.error (.storage error))
  | .ok bytes =>
    if bytes.ciphertext.length ≠ reference.bytes then some (.error (.storage .unavailable))
    else
      (p.openCheckpoint cipher reference.key descriptor bytes reference.bytes).map fun
        | .error error => .error (.storage error)
        | .ok checkpoint =>
          if checkpoint.descriptor ≠ descriptor ∨ checkpoint.capacity > plaintextMax then
            .error .invalidConfiguration
          else .ok checkpoint

/-- The jobs of the projection, answered by these adapters. -/
theorem commitStored_job (p : CheckpointProtector κ) (cipher : XChaCha20Poly1305 κ) (s : FileCheckpointStore)
    (key : CheckpointKey) (checkpoint : TerminalCheckpoint) (descriptor : CheckpointDescriptor) (protectedMax : Nat)
    (answers : ProtectAnswers) (disk : CommitAnswers) {a : Answer}
    (isProtected : a.isProtected = p.protect cipher key checkpoint answers)
    (committed : ∀ sealed, a.isProtected = .ok sealed → a.committed = (s.commit sealed disk).1) :
    (commitStored p cipher s key checkpoint descriptor protectedMax answers disk).1 =
      commitJob key descriptor protectedMax a := by
  unfold commitStored commitJob
  rw [← isProtected]
  cases outcome : a.isProtected with
  | error error => rfl
  | ok sealed =>
    dsimp only
    split
    · rfl
    · rw [committed sealed outcome]
      generalize s.commit sealed disk = answer
      obtain ⟨result, cleanup, after⟩ := answer
      cases result with
      | error error => rfl
      | ok reference =>
        dsimp only
        split <;> rfl

theorem readStored_job (p : CheckpointProtector κ) (cipher : XChaCha20Poly1305 κ) (s : FileCheckpointStore)
    (reference : CheckpointRef) (descriptor : CheckpointDescriptor) (protectedMax plaintextMax : Nat)
    (disk : ReadAnswers) {a : Answer} (read : a.read = s.read reference protectedMax disk)
    (opened : ∀ bytes, a.read = .ok bytes →
      p.openCheckpoint cipher reference.key descriptor bytes reference.bytes = some a.opened) :
    readStored p cipher s reference descriptor protectedMax plaintextMax disk =
      some (readJob ⟨reference, descriptor⟩ plaintextMax a) := by
  unfold readStored readJob
  rw [← read]
  cases outcome : a.read with
  | error error => rfl
  | ok bytes =>
    dsimp only
    split
    · rfl
    · refine (congrArg (Option.map _) (opened bytes outcome)).trans ?_
      cases a.opened with
      | error error => rfl
      | ok checkpoint => rfl

variable {cipher : XChaCha20Poly1305 κ} {made : Aead.Sealing κ 24 16 → Prop} {p : CheckpointProtector κ}
  {key : CheckpointKey} {checkpoint : TerminalCheckpoint} {answers : ProtectAnswers} {s : Aead.Sealing κ 24 16}

/-- A published reference is what the store answered to the sealed checkpoint. -/
theorem commitStored_published {store : FileCheckpointStore} {descriptor : CheckpointDescriptor} {protectedMax : Nat}
    {disk : CommitAnswers} {reference : CheckpointRef} {sealed : ProtectedCheckpoint}
    (protect : p.protect cipher key checkpoint answers = .ok sealed)
    (published : (commitStored p cipher store key checkpoint descriptor protectedMax answers disk).1 =
      .published reference) :
    sealed.ciphertext.length ≤ protectedMax ∧ reference.key = key ∧ reference.bytes = sealed.ciphertext.length ∧
      (store.commit sealed disk).1 = .ok reference ∧
      (commitStored p cipher store key checkpoint descriptor protectedMax answers disk).2 =
        (store.commit sealed disk).2.2 := by
  unfold commitStored at published ⊢
  rw [protect] at published ⊢
  dsimp only at published ⊢
  split at published
  · cases published
  · rename_i agreed
    rw [if_neg agreed]
    generalize store.commit sealed disk = answer at published ⊢
    obtain ⟨result, cleanup, after⟩ := answer
    cases result with
    | error error => cases published
    | ok granted =>
      dsimp only at published ⊢
      split at published
      · cases published
      · rename_i same
        cases published
        rw [if_neg same]
        obtain ⟨ownKey, ownBytes⟩ := not_or.mp same
        simp only [not_or, Nat.not_lt] at agreed
        exact ⟨agreed.2.2.2, not_not.mp ownKey, not_not.mp ownBytes, rfl, rfl⟩

/-- Reading the reference back opens what was sealed, in a buffer of the sealed length. -/
theorem CheckpointProtector.Protects.reads (protects : Protects made p key checkpoint answers s) (ideal : Aead.Ideal cipher made)
    {store : FileCheckpointStore} (sound : Sound store) {protectedMax : Nat} {disk : CommitAnswers}
    {reference : CheckpointRef}
    (published : (commitStored p cipher store key checkpoint checkpoint.descriptor protectedMax answers disk).1 =
      .published reference) {later : List Call} (kept : ∀ call ∈ later, call.operation ≠ .delete reference)
    (plaintextMax : Nat) :
    readStored p cipher
        ((commitStored p cipher store key checkpoint checkpoint.descriptor protectedMax answers disk).2.run later).2
        reference checkpoint.descriptor protectedMax plaintextMax granted =
      some (if checkpoint.bytes.length + 40 > plaintextMax then .error .invalidConfiguration
        else .ok ⟨checkpoint.descriptor, checkpoint.bytes, checkpoint.bytes.length + 40⟩) := by
  obtain ⟨fits, rfl, bytes, committed, after⟩ := commitStored_published (protects.protect ideal) published
  have length : (s.output ++ s.nonce.val).length = checkpoint.bytes.length + 40 := by
    rw [List.length_append, protects.output_length ideal, s.nonce.property]
  rw [after]
  have held := (sound.answers.committed _ _ _ committed).2
  generalize stored_as : (⟨reference.key, checkpoint.descriptor, s.output ++ s.nonce.val⟩ : ProtectedCheckpoint) =
    sealed at *
  have sound' := (commit_refines sound sealed disk).2
  have stored : (store.commit sealed disk).2.2.view.stored reference.key = some ⟨reference, sealed⟩ := by
    rw [held, ← stored_as]
    exact Function.update_self ..
  have kept := run_keeps sound' stored kept
  have read := read_stored (run_refines sound' later).2 kept (bytes.trans_le fits)
  unfold readStored
  rw [read]
  dsimp only
  rw [if_neg (not_not.mpr bytes.symm), bytes, ← stored_as, length, protects.opens ideal, Option.map_some]
  simp only [ne_eq, not_true_eq_false, false_or]

/-- What holds of a sealed checkpoint wherever its bytes are presented. -/
structure Guarded (made : Aead.Sealing κ 24 16 → Prop) (cipher : XChaCha20Poly1305 κ) (p : CheckpointProtector κ)
    (key : CheckpointKey) (checkpoint : TerminalCheckpoint) (s : Aead.Sealing κ 24 16)
    (sealed : ProtectedCheckpoint) : Prop where
  /-- No other identity has its associated data. -/
  identified : ∀ key' d', Represented key' d' → metadata key' d' = metadata key checkpoint.descriptor →
    key' = key ∧ d' = checkpoint.descriptor
  length : sealed.ciphertext.length = checkpoint.bytes.length + 40
  limit : ∀ plaintext, checkpoint.bytes.length ≤ plaintext → plaintext ≤ p.maxBytes →
    ∃ limit, p.protectedSizeLimit plaintext = .ok limit ∧ sealed.ciphertext.length ≤ limit
  /-- Its bytes open for no other protector, key or descriptor. -/
  unsubstituted : ∀ (q : CheckpointProtector κ) key' d' presented capacity opened, Represented key' d' →
    presented.ciphertext = sealed.ciphertext → q.openCheckpoint cipher key' d' presented capacity = some (.ok opened) →
    q.key = p.key ∧ key' = key ∧ d' = checkpoint.descriptor
  /-- Its identity being sealed once, no other bytes open under it. -/
  unchanged : (∀ t, made t → t.key = p.key → t.aad = s.aad → t = s) → ∀ presented capacity,
    presented.ciphertext ≠ sealed.ciphertext →
    ∃ error, p.openCheckpoint cipher key checkpoint.descriptor presented capacity = some (.error error)
  /-- Opening anything answers, never panics. -/
  answered : ∀ (q : CheckpointProtector κ) key' d' presented capacity,
    ∃ result, q.openCheckpoint cipher key' d' presented capacity = some result

theorem CheckpointProtector.Protects.guarded (protects : Protects made p key checkpoint answers s) (ideal : Aead.Ideal cipher made)
    (represented : Represented key checkpoint.descriptor) :
    Guarded made cipher p key checkpoint s ⟨key, checkpoint.descriptor, s.output ++ s.nonce.val⟩ where
  identified key' d' represented' same := metadata_inj represented' represented (same.trans protects.aad) protects.aad
  length := by
    rw [List.length_append, protects.output_length ideal, s.nonce.property]
  limit plaintext within most := by
    refine ⟨_, protectedSizeLimit_ok most, ?_⟩
    rw [List.length_append, protects.output_length ideal, s.nonce.property]
    omega
  unsubstituted q key' d' presented capacity opened represented' bytes ok :=
    protects.unsubstituted ideal represented represented' bytes ok
  unchanged once presented capacity other := by
    obtain ⟨result, answered⟩ :=
      p.openCheckpoint_answers cipher key checkpoint.descriptor presented capacity
    cases result with
    | error error => exact ⟨error, answered⟩
    | ok opened =>
      obtain ⟨t, is_made, own, described, -, bytes⟩ := opens_sealed ideal answered
      have aad : t.aad = s.aad := Except.ok.inj (described.symm.trans protects.aad)
      obtain rfl := once t is_made own aad
      exact absurd bytes other
  answered q key' d' presented capacity := q.openCheckpoint_answers cipher key' d' presented capacity

/-- A sealed checkpoint cannot be substituted, and the jobs give it back exactly when its
sealed length still fits the plaintext limit of the read. -/
theorem checkpoint_protected (ideal : Aead.Ideal cipher made) (represented : Represented key checkpoint.descriptor)
    (protects : Protects made p key checkpoint answers s) :
    ∃ sealed, p.protect cipher key checkpoint answers = .ok sealed ∧ Guarded made cipher p key checkpoint s sealed ∧
      ∀ directory limit earlier protectedMax disk reference,
        let store := ((fromDirectory directory limit).run earlier).2
        let committed := commitStored p cipher store key checkpoint checkpoint.descriptor protectedMax answers disk
        committed.1 = .published reference →
        ∀ later, (∀ call ∈ later, call.operation ≠ .delete reference) → ∀ plaintextMax,
          (∃ opened, readStored p cipher (committed.2.run later).2 reference checkpoint.descriptor protectedMax
              plaintextMax granted = some (.ok opened) ∧
            opened.descriptor = checkpoint.descriptor ∧ opened.bytes = checkpoint.bytes) ↔
          checkpoint.bytes.length + 40 ≤ plaintextMax := by
  refine ⟨_, protects.protect ideal, protects.guarded ideal represented, ?_⟩
  intro directory limit earlier protectedMax disk reference store committed published later kept plaintextMax
  have sound := (run_refines (fromDirectory_sound directory limit) earlier).2
  rw [protects.reads ideal sound published kept plaintextMax]
  constructor
  · rintro ⟨opened, read, -⟩
    by_contra above
    rw [if_pos (Nat.not_le.mp above)] at read
    cases read
  · intro fits
    rw [if_neg (Nat.not_lt.mpr fits)]
    exact ⟨_, rfl, rfl, rfl⟩

/-- One encryption of XChaCha20-Poly1305, under the key of the bytes 0 to 31 and the nonce of
the bytes 0 to 23. -/
def oneSealing : Aead.Sealing (FixedBytes 32) 24 16 where
  key := ⟨(List.range 32).map Nat.toUInt8, by decide⟩
  nonce := ⟨(List.range 24).map Nat.toUInt8, by decide⟩
  aad := asBytes "pty-checkpoint-xchacha-v1" ++
    ([1, 2, 3, 4, 5, 2].flatMap (LittleEndian.bytesOf 8) ++ asBytes "v1")
  plaintext := [1, 2, 3]
  body := [159, 192, 12]
  tag := ⟨[253, 46, 210, 16, 84, 214, 34, 249, 65, 193, 126, 53, 216, 139, 118, 26], by decide⟩

/-- The cipher as far as that encryption tells. -/
def oneCipher : XChaCha20Poly1305 (FixedBytes 32) where
  encrypt key nonce aad plaintext :=
    if key = oneSealing.key ∧ nonce = oneSealing.nonce ∧ aad = oneSealing.aad ∧ plaintext = oneSealing.plaintext then
      some (oneSealing.body, oneSealing.tag)
    else none
  decrypt key nonce aad bytes :=
    if key = oneSealing.key ∧ nonce = oneSealing.nonce ∧ aad = oneSealing.aad ∧ bytes = oneSealing.output then
      some oneSealing.plaintext
    else none

theorem oneCipher_ideal : Aead.Ideal oneCipher (· = oneSealing) where
  answered s is_made := by
    subst is_made
    simp [oneCipher]
  length s is_made := by
    subst is_made
    rfl
  opens s is_made := by
    subst is_made
    simp [oneCipher]
  genuine := by
    intro key nonce aad bytes plaintext decrypted
    simp only [oneCipher] at decrypted
    split at decrypted
    · rename_i same
      obtain ⟨rfl, rfl, rfl, rfl⟩ := same
      exact ⟨_, rfl, rfl, rfl, rfl, rfl⟩
    · cases decrypted
  bound s t made made' _ := by
    subst made made'
    exact ⟨rfl, rfl, rfl⟩

def oneKey : CheckpointKey := ⟨⟨1, 2⟩, 3⟩

def oneCheckpoint : TerminalCheckpoint := ⟨⟨"v1", ⟨⟨1, 2⟩, 4⟩, ⟨5⟩⟩, [1, 2, 3], 3⟩

def oneProtector : CheckpointProtector (FixedBytes 32) := ⟨oneSealing.key, 3, by decide⟩

def oneCommit : CommitAnswers := ⟨some 9, ⟨none, .owned⟩, none, none, none, none⟩

theorem one_represented : Represented oneKey oneCheckpoint.descriptor := by
  constructor <;> decide

theorem one_protects :
    Protects (· = oneSealing) oneProtector oneKey oneCheckpoint ⟨some oneSealing.nonce, true⟩ oneSealing where
  within := by decide
  aad := rfl
  entropy := rfl
  key := rfl
  plaintext := rfl
  encrypted := rfl
  reserved := rfl

/-- A checkpoint of the greatest size is sealed, committed and published, and refused when
it is read back under the same limit. -/
theorem full_checkpoint_unreadable :
    let committed := commitStored oneProtector oneCipher (fromDirectory (fun _ => none) 100) oneKey oneCheckpoint
      oneCheckpoint.descriptor 43 ⟨some oneSealing.nonce, true⟩ oneCommit
    oneCheckpoint.bytes.length ≤ oneProtector.maxBytes ∧ oneProtector.protectedSizeLimit 3 = .ok 43 ∧
      committed.1 = .published ⟨9, oneKey, 43⟩ ∧
      readStored oneProtector oneCipher committed.2 ⟨9, oneKey, 43⟩ oneCheckpoint.descriptor 43 3 granted =
        some (.error .invalidConfiguration) := by
  exact ⟨by decide, rfl, rfl, rfl⟩

theorem checkpoint_protected_one :
    let committed := commitStored oneProtector oneCipher (fromDirectory (fun _ => none) 100) oneKey oneCheckpoint
      oneCheckpoint.descriptor 43 ⟨some oneSealing.nonce, true⟩ oneCommit
    ∃ opened, readStored oneProtector oneCipher committed.2 ⟨9, oneKey, 43⟩ oneCheckpoint.descriptor 43 43 granted =
        some (.ok opened) ∧ opened.descriptor = oneCheckpoint.descriptor ∧ opened.bytes = oneCheckpoint.bytes := by
  obtain ⟨-, -, -, reads⟩ := checkpoint_protected oneCipher_ideal one_represented one_protects
  exact (reads (fun _ => none) 100 [] 43 oneCommit ⟨9, oneKey, 43⟩ rfl [] (by simp) 43).mpr (by decide)

end PtyRuntime
