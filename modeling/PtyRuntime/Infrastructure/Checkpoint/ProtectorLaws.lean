import PtyRuntime.Infrastructure.Checkpoint.Protector

/-! What the protector seals and what it opens. -/
namespace PtyRuntime

theorem asBytes_inj {s t : String} (same : asBytes s = asBytes t) : s = t :=
  String.toByteArray_inj.mp (ByteArray.ext (Array.toList_inj.mp same))

/-- The numbers of an identity are 64-bit and its compatibility is bounded. -/
structure Represented (key : CheckpointKey) (d : CheckpointDescriptor) : Prop where
  owner : key.lifetime.owner ≤ u64Max
  sequence : key.lifetime.sequence ≤ u64Max
  generation : key.generation ≤ u64Max
  offset : d.processed.offset ≤ u64Max
  control : d.controlGeneration.value ≤ u64Max
  compatibility : (asBytes d.compatibility).length ≤ 4096

/-- The numbers that the associated data holds are 64-bit. -/
theorem Represented.words {key : CheckpointKey} {d : CheckpointDescriptor} (represented : Represented key d) :
    ∀ n ∈ [key.lifetime.owner, key.lifetime.sequence, key.generation, d.processed.offset,
      d.controlGeneration.value, (asBytes d.compatibility).length], n < 256 ^ 8 := by
  have max : u64Max < 256 ^ 8 := by decide
  obtain ⟨owner, sequence, generation, offset, control, compatibility⟩ := represented
  intro n member
  simp only [List.mem_cons, List.not_mem_nil, or_false] at member
  rcases member with rfl | rfl | rfl | rfl | rfl | rfl
  all_goals omega

namespace CheckpointProtector

variable {κ : Type} {cipher : XChaCha20Poly1305 κ} {made : Aead.Sealing κ 24 16 → Prop}
  {p : CheckpointProtector κ} {key : CheckpointKey} {d : CheckpointDescriptor}

theorem metadata_ok {aad : Bytes} (ok : metadata key d = .ok aad) :
    key.lifetime = d.processed.lifetime ∧ aad = asBytes "pty-checkpoint-xchacha-v1" ++
      ([key.lifetime.owner, key.lifetime.sequence, key.generation, d.processed.offset, d.controlGeneration.value,
        (asBytes d.compatibility).length].flatMap (LittleEndian.bytesOf 8) ++ asBytes d.compatibility) := by
  unfold metadata at ok
  split at ok
  · cases ok
  · rename_i same
    cases ok
    exact ⟨not_not.mp same, rfl⟩

/-- No two identities have the same associated data. -/
theorem metadata_inj {key' : CheckpointKey} {d' : CheckpointDescriptor} {aad : Bytes}
    (represented : Represented key d) (represented' : Represented key' d') (ok : metadata key d = .ok aad)
    (ok' : metadata key' d' = .ok aad) : key = key' ∧ d = d' := by
  obtain ⟨lifetime, rfl⟩ := metadata_ok ok
  obtain ⟨lifetime', same⟩ := metadata_ok ok'
  obtain ⟨words, compatibility⟩ := LittleEndian.flatMap_bytesOf_inj (by simp) represented.words
    represented'.words (List.append_cancel_left same)
  obtain ⟨compatible, ⟨live, offset⟩, ⟨control⟩⟩ := d
  obtain ⟨compatible', ⟨live', offset'⟩, ⟨control'⟩⟩ := d'
  obtain ⟨⟨owner, sequence⟩, generation⟩ := key
  obtain ⟨⟨owner', sequence'⟩, generation'⟩ := key'
  dsimp only at lifetime lifetime' words compatibility
  subst lifetime lifetime'
  obtain rfl := asBytes_inj compatibility
  simp only [List.cons.injEq, and_true] at words
  obtain ⟨rfl, rfl, rfl, rfl, rfl⟩ := words
  exact ⟨rfl, rfl⟩

/-- What `protect` needs to answer its checkpoint sealed as the encryption `s`. -/
structure Protects (made : Aead.Sealing κ 24 16 → Prop) (p : CheckpointProtector κ) (key : CheckpointKey)
    (checkpoint : TerminalCheckpoint) (answers : ProtectAnswers) (s : Aead.Sealing κ 24 16) : Prop where
  within : checkpoint.bytes.length ≤ p.maxBytes
  aad : metadata key checkpoint.descriptor = .ok s.aad
  entropy : answers.nonce = some s.nonce
  key : s.key = p.key
  plaintext : s.plaintext = checkpoint.bytes
  encrypted : made s
  reserved : answers.reserved = true

variable {checkpoint : TerminalCheckpoint} {answers : ProtectAnswers} {s : Aead.Sealing κ 24 16}

theorem Protects.protect (protects : Protects made p key checkpoint answers s) (ideal : Aead.Ideal cipher made) :
    p.protect cipher key checkpoint answers =
      .ok ⟨key, checkpoint.descriptor, s.output ++ s.nonce.val⟩ := by
  have answered := ideal.answered s protects.encrypted
  rw [protects.key, protects.plaintext] at answered
  simp only [CheckpointProtector.protect, Nat.not_lt.mpr protects.within, protects.aad, protects.entropy, answered,
    protects.reserved, if_false, if_true, Aead.Sealing.output]

theorem Protects.output_length (protects : Protects made p key checkpoint answers s)
    (ideal : Aead.Ideal cipher made) : s.output.length = checkpoint.bytes.length + 16 := by
  rw [Aead.Sealing.output, List.length_append, s.tag.property, ideal.length s protects.encrypted, protects.plaintext]

theorem protectedSizeLimit_ok {plaintext : Nat} (within : plaintext ≤ p.maxBytes) :
    p.protectedSizeLimit plaintext = .ok (plaintext + 40) := by
  have bounded := p.bounded.2
  have fits : checkedAdd plaintext 40 = some (plaintext + 40) := by
    rw [checkedAdd_eq_some]
    refine ⟨?_, rfl⟩
    unfold u64Max
    omega
  rw [protectedSizeLimit, if_neg (Nat.not_lt.mpr within), fits]
  rfl

/-- The length arithmetic of `open` cuts the nonce off again and never fails. -/
theorem openCheckpoint_split {checkpoint : ProtectedCheckpoint} {encrypted : Bytes} {nonce : FixedBytes 24}
    (split : checkpoint.ciphertext = encrypted ++ nonce.val) (capacity : Nat) :
    p.openCheckpoint cipher key d checkpoint capacity =
      if checkpoint.key ≠ key ∨ checkpoint.descriptor ≠ d then some (.error .authenticationFailed)
      else if encrypted.length < 16 then some (.error .authenticationFailed)
      else if encrypted.length - 16 > p.maxBytes then some (.error .capacityExceeded)
      else
        match metadata key d with
        | .error error => some (.error error)
        | .ok aad =>
          some (match cipher.decrypt p.key nonce aad encrypted with
            | none => .error .authenticationFailed
            | some bytes => .ok ⟨d, bytes, capacity⟩) := by
  have length : checkpoint.ciphertext.length = encrypted.length + 24 := by
    rw [split, List.length_append, nonce.property]
  unfold openCheckpoint
  dsimp only
  split
  · rfl
  · by_cases short : encrypted.length < 16
    · rw [if_pos (by omega), if_pos short]
    · have body : checkedSub checkpoint.ciphertext.length 40 = some (encrypted.length - 16) :=
        checkedSub_eq_some.mpr ⟨by omega, by omega⟩
      have front : checkedSub checkpoint.ciphertext.length 24 = some encrypted.length :=
        checkedSub_eq_some.mpr ⟨by omega, by omega⟩
      have tail : sliceFrom checkpoint.ciphertext encrypted.length = some nonce.val := by
        rw [sliceFrom, if_pos (by omega), split, List.drop_left]
      have copied : copyNonce nonce.val = some nonce := dif_pos nonce.property
      have kept : checkpoint.ciphertext.take encrypted.length = encrypted := by rw [split, List.take_left]
      rw [if_neg (by omega), if_neg short, body, Option.bind_some]
      split
      · rfl
      · cases metadata key d with
        | error error => rfl
        | ok aad =>
          cases decrypted : cipher.decrypt p.key nonce aad encrypted with
          | none => simp only [front, Option.bind_some, tail, copied, Option.map_some, kept, decrypted]
          | some bytes => simp only [front, Option.bind_some, tail, copied, Option.map_some, kept, decrypted]

/-- Bytes that hold a nonce at their end are cut there; shorter ones are refused at once. -/
theorem ciphertext_cases (ciphertext : Bytes) :
    ciphertext.length < 40 ∨ ∃ (encrypted : Bytes) (nonce : FixedBytes 24), ciphertext = encrypted ++ nonce.val := by
  rcases Nat.lt_or_ge ciphertext.length 40 with short | long
  · exact .inl short
  · refine .inr ⟨ciphertext.take (ciphertext.length - 24), ⟨ciphertext.drop (ciphertext.length - 24), ?_⟩, ?_⟩
    · rw [List.length_drop]
      omega
    · exact (List.take_append_drop _ _).symm

/-- `open` always answers: none of its slices and subtractions panics. -/
theorem openCheckpoint_answers (p : CheckpointProtector κ) (cipher : XChaCha20Poly1305 κ) (key : CheckpointKey)
    (d : CheckpointDescriptor) (checkpoint : ProtectedCheckpoint) (capacity : Nat) :
    ∃ result, p.openCheckpoint cipher key d checkpoint capacity = some result := by
  rcases ciphertext_cases checkpoint.ciphertext with short | ⟨encrypted, nonce, split⟩
  · simp only [openCheckpoint, short, if_true]
    split <;> exact ⟨_, rfl⟩
  · rw [openCheckpoint_split split]
    repeat' split
    all_goals exact ⟨_, rfl⟩

/-- What opens was cut and decrypted under the identity that was asked for. -/
theorem openCheckpoint_ok {checkpoint : ProtectedCheckpoint} {capacity : Nat} {opened : TerminalCheckpoint}
    (ok : p.openCheckpoint cipher key d checkpoint capacity = some (.ok opened)) :
    checkpoint.key = key ∧ checkpoint.descriptor = d ∧ ∃ encrypted nonce aad,
      checkpoint.ciphertext = encrypted ++ nonce.val ∧ metadata key d = .ok aad ∧
      cipher.decrypt p.key nonce aad encrypted = some opened.bytes := by
  rcases ciphertext_cases checkpoint.ciphertext with short | ⟨encrypted, nonce, split⟩
  · simp only [openCheckpoint, short, if_true] at ok
    split at ok <;> cases ok
  · rw [openCheckpoint_split split] at ok
    split at ok
    · cases ok
    · rename_i same
      obtain ⟨sameKey, sameDescriptor⟩ := not_or.mp same
      split at ok
      · cases ok
      · split at ok
        · cases ok
        · split at ok
          · cases ok
          · rename_i aad described
            cases decrypted : cipher.decrypt p.key nonce aad encrypted with
            | none =>
              rw [decrypted] at ok
              cases ok
            | some bytes =>
              rw [decrypted] at ok
              cases ok
              exact ⟨not_not.mp sameKey, not_not.mp sameDescriptor, encrypted, nonce, aad, split, described, decrypted⟩

/-- A sealed checkpoint opens again under its own identity. -/
theorem Protects.opens (protects : Protects made p key checkpoint answers s) (ideal : Aead.Ideal cipher made)
    (capacity : Nat) :
    p.openCheckpoint cipher key checkpoint.descriptor ⟨key, checkpoint.descriptor, s.output ++ s.nonce.val⟩ capacity =
      some (.ok ⟨checkpoint.descriptor, checkpoint.bytes, capacity⟩) := by
  have decrypted := ideal.opens s protects.encrypted
  rw [protects.key, protects.plaintext] at decrypted
  have length := protects.output_length ideal
  have within := protects.within
  rw [openCheckpoint_split rfl, if_neg (by simp), if_neg (by omega), if_neg (by omega), protects.aad]
  dsimp only
  rw [decrypted]

/-- The bytes of a sealed checkpoint open under no other identity and for no other protector. -/
theorem Protects.unsubstituted (protects : Protects made p key checkpoint answers s)
    (ideal : Aead.Ideal cipher made) (represented : Represented key checkpoint.descriptor)
    {q : CheckpointProtector κ} {key' : CheckpointKey} {d' : CheckpointDescriptor}
    (represented' : Represented key' d') {presented : ProtectedCheckpoint}
    (bytes : presented.ciphertext = s.output ++ s.nonce.val) {capacity : Nat} {opened : TerminalCheckpoint}
    (ok : q.openCheckpoint cipher key' d' presented capacity = some (.ok opened)) :
    q.key = p.key ∧ key' = key ∧ d' = checkpoint.descriptor := by
  obtain ⟨-, -, encrypted, nonce, aad, split, described, decrypted⟩ := openCheckpoint_ok ok
  obtain ⟨output, -⟩ := List.append_inj' (bytes.symm.trans split) (by rw [s.nonce.property, nonce.property])
  rw [← output] at decrypted
  obtain ⟨same, -, rfl, -⟩ := ideal.opened protects.encrypted decrypted
  obtain ⟨rfl, rfl⟩ := metadata_inj represented' represented described protects.aad
  exact ⟨same.trans protects.key, rfl, rfl⟩

/-- Bytes that open are those of an encryption under the same key and identity. -/
theorem opens_sealed (ideal : Aead.Ideal cipher made) {presented : ProtectedCheckpoint} {capacity : Nat}
    {opened : TerminalCheckpoint} (ok : p.openCheckpoint cipher key d presented capacity = some (.ok opened)) :
    ∃ t, made t ∧ t.key = p.key ∧ metadata key d = .ok t.aad ∧ t.plaintext = opened.bytes ∧
      presented.ciphertext = t.output ++ t.nonce.val := by
  obtain ⟨-, -, encrypted, nonce, aad, split, described, decrypted⟩ := openCheckpoint_ok ok
  obtain ⟨t, is_made, same, rfl, rfl, plaintext, rfl⟩ := ideal.source decrypted
  exact ⟨t, is_made, same, described, plaintext, split⟩

end CheckpointProtector
end PtyRuntime
