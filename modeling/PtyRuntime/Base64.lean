import Mathlib.Data.List.Basic

/-! Base64 over the standard alphabet: the canonical encoding of a byte string, with
and without the padding that completes its last group. -/
namespace Base64

/-- The digit for a number of six bits. -/
def digit (n : Nat) : UInt8 :=
  if n < 26 then .ofNat (n + 65)
  else if n < 52 then .ofNat (n + 71)
  else if n < 62 then .ofNat (n - 4)
  else if n = 62 then 43
  else 47

/-- The byte `=`. -/
def pad : UInt8 := 61

/-- Three bytes become four digits; the bits a shorter last group lacks are zero. -/
def encode : List UInt8 → List UInt8
  | [] => []
  | [a] => [digit (a.toNat / 4), digit (a.toNat % 4 * 16)]
  | [a, b] =>
    [digit (a.toNat / 4), digit (a.toNat % 4 * 16 + b.toNat / 16), digit (b.toNat % 16 * 4)]
  | a :: b :: c :: rest =>
    digit (a.toNat / 4) :: digit (a.toNat % 4 * 16 + b.toNat / 16) ::
      digit (b.toNat % 16 * 4 + c.toNat / 64) :: digit (c.toNat % 64) :: encode rest

/-- How many padding bytes complete the last group. -/
def padding (bytes : List UInt8) : Nat := (3 - bytes.length % 3) % 3

def encodePadded (bytes : List UInt8) : List UInt8 :=
  encode bytes ++ List.replicate (padding bytes) pad

theorem digit_ne_pad : ∀ n < 64, digit n ≠ pad := by decide

theorem pad_not_mem_encode (bytes : List UInt8) : pad ∉ encode bytes := by
  have small (x : UInt8) : x.toNat < 256 := x.toNat_lt
  induction bytes using encode.induct with
  | case1 => exact List.not_mem_nil
  | case2 a =>
    have := small a
    simp only [encode, List.mem_cons, List.not_mem_nil, or_false, not_or]
    exact ⟨(digit_ne_pad _ (by omega)).symm, (digit_ne_pad _ (by omega)).symm⟩
  | case3 a b =>
    have := small a
    have := small b
    simp only [encode, List.mem_cons, List.not_mem_nil, or_false, not_or]
    exact ⟨(digit_ne_pad _ (by omega)).symm, (digit_ne_pad _ (by omega)).symm,
      (digit_ne_pad _ (by omega)).symm⟩
  | case4 a b c rest ih =>
    have := small a
    have := small b
    have := small c
    simp only [encode, List.mem_cons, not_or]
    exact ⟨(digit_ne_pad _ (by omega)).symm, (digit_ne_pad _ (by omega)).symm,
      (digit_ne_pad _ (by omega)).symm, (digit_ne_pad _ (by omega)).symm, ih⟩

/-- No encoding is one digit past a whole group, and each padding follows from the length. -/
theorem length_encode (bytes : List UInt8) :
    (encode bytes).length % 4 ≠ 1 ∧ padding bytes = (4 - (encode bytes).length % 4) % 4 := by
  induction bytes using encode.induct with
  | case1 | case2 | case3 => simp [encode, padding]
  | case4 a b c rest ih =>
    simp only [encode, padding, List.length_cons] at ih ⊢
    omega

end Base64
