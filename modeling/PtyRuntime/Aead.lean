import Mathlib.Data.Nat.Notation

/-! Authenticated encryption with associated data, taken as ideal. -/

/-- A byte string of a fixed length. -/
abbrev FixedBytes (width : Nat) := {bytes : List UInt8 // bytes.length = width}

/-- The two operations of a cipher; encryption answers the ciphertext and the tag apart. -/
structure Aead (κ : Type) (nonceWidth tagWidth : Nat) where
  encrypt : κ → FixedBytes nonceWidth → List UInt8 → List UInt8 → Option (List UInt8 × FixedBytes tagWidth)
  decrypt : κ → FixedBytes nonceWidth → List UInt8 → List UInt8 → Option (List UInt8)

namespace Aead

/-- One encryption, with its answer. -/
structure Sealing (κ : Type) (nonceWidth tagWidth : Nat) where
  key : κ
  nonce : FixedBytes nonceWidth
  aad : List UInt8
  plaintext : List UInt8
  body : List UInt8
  tag : FixedBytes tagWidth

variable {κ : Type} {nonceWidth tagWidth : Nat}

/-- What decryption is given back. -/
def Sealing.output (s : Sealing κ nonceWidth tagWidth) : List UInt8 := s.body ++ s.tag.val

/-- Of all byte strings, only the outputs of the encryptions that were `made` decrypt, each
under its own key, nonce and associated data. -/
structure Ideal (cipher : Aead κ nonceWidth tagWidth) (made : Sealing κ nonceWidth tagWidth → Prop) : Prop where
  answered : ∀ s, made s → cipher.encrypt s.key s.nonce s.aad s.plaintext = some (s.body, s.tag)
  length : ∀ s, made s → s.body.length = s.plaintext.length
  opens : ∀ s, made s → cipher.decrypt s.key s.nonce s.aad s.output = some s.plaintext
  genuine : ∀ {key nonce aad bytes plaintext}, cipher.decrypt key nonce aad bytes = some plaintext →
    ∃ s, made s ∧ s.key = key ∧ s.nonce = nonce ∧ s.aad = aad ∧ s.output = bytes
  bound : ∀ s t, made s → made t → s.output = t.output → s.key = t.key ∧ s.nonce = t.nonce ∧ s.aad = t.aad

variable {cipher : Aead κ nonceWidth tagWidth} {made : Sealing κ nonceWidth tagWidth → Prop}

/-- The output of an encryption opens under nothing but what it was made under. -/
theorem Ideal.opened (ideal : Ideal cipher made) {s : Sealing κ nonceWidth tagWidth} (is_made : made s) {key : κ}
    {nonce : FixedBytes nonceWidth} {aad plaintext : List UInt8}
    (decrypted : cipher.decrypt key nonce aad s.output = some plaintext) :
    key = s.key ∧ nonce = s.nonce ∧ aad = s.aad ∧ plaintext = s.plaintext := by
  obtain ⟨t, made', rfl, rfl, rfl, same⟩ := ideal.genuine decrypted
  obtain ⟨key, nonce, aad⟩ := ideal.bound t s made' is_made same
  refine ⟨key, nonce, aad, ?_⟩
  rw [key, nonce, aad, ideal.opens s is_made] at decrypted
  exact (Option.some.inj decrypted).symm

/-- What opens is the output of an encryption of the plaintext under the same key, nonce and
associated data. -/
theorem Ideal.source (ideal : Ideal cipher made) {key : κ} {nonce : FixedBytes nonceWidth}
    {aad bytes plaintext : List UInt8} (decrypted : cipher.decrypt key nonce aad bytes = some plaintext) :
    ∃ s, made s ∧ s.key = key ∧ s.nonce = nonce ∧ s.aad = aad ∧ s.plaintext = plaintext ∧ s.output = bytes := by
  obtain ⟨s, is_made, rfl, rfl, rfl, rfl⟩ := ideal.genuine decrypted
  exact ⟨s, is_made, rfl, rfl, rfl, (ideal.opened is_made decrypted).2.2.2.symm, rfl⟩

end Aead
