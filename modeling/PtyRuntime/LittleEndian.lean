import Mathlib.Data.List.Basic
import Mathlib.Tactic.Ring
import Mathlib.Tactic.Positivity

/-! Numbers as bytes of a fixed width, the least significant first. -/
namespace LittleEndian

def bytesOf : Nat → Nat → List UInt8
  | 0, _ => []
  | width + 1, n => (n % 256).toUInt8 :: bytesOf width (n / 256)

def natOf : List UInt8 → Nat
  | [] => 0
  | byte :: rest => byte.toNat + 256 * natOf rest

@[simp] theorem length_bytesOf (width n : Nat) : (bytesOf width n).length = width := by
  induction width generalizing n with
  | zero => rfl
  | succ width ih => rw [bytesOf, List.length_cons, ih]

theorem natOf_lt (bytes : List UInt8) : natOf bytes < 256 ^ bytes.length := by
  induction bytes with
  | nil => exact Nat.one_pos
  | cons byte rest ih =>
    have small : byte.toNat < 256 := byte.toNat_lt
    rw [natOf, List.length_cons, Nat.pow_succ]
    omega

theorem natOf_bytesOf {width n : Nat} (fits : n < 256 ^ width) : natOf (bytesOf width n) = n := by
  induction width generalizing n with
  | zero =>
    have zero : n = 0 := by simpa using fits
    rw [zero]
    rfl
  | succ width ih =>
    rw [Nat.pow_succ] at fits
    have low : (n % 256).toUInt8.toNat = n % 256 := by simp
    rw [bytesOf, natOf, low, ih (by omega)]
    omega

theorem bytesOf_natOf (bytes : List UInt8) : bytesOf bytes.length (natOf bytes) = bytes := by
  induction bytes with
  | nil => rfl
  | cons byte rest ih =>
    have small : byte.toNat < 256 := byte.toNat_lt
    have low : (byte.toNat + 256 * natOf rest) % 256 = byte.toNat := by omega
    have high : (byte.toNat + 256 * natOf rest) / 256 = natOf rest := by omega
    rw [natOf, List.length_cons, bytesOf, low, high, ih]
    simp

theorem bytesOf_inj {width first second : Nat} (fits : first < 256 ^ width) (fits' : second < 256 ^ width)
    (same : bytesOf width first = bytesOf width second) : first = second := by
  rw [← natOf_bytesOf fits, same, natOf_bytesOf fits']

/-- Numbers of one width, one after another, can be told from what follows them. -/
theorem flatMap_bytesOf_inj {width : Nat} {first second : List Nat} {rest rest' : List UInt8}
    (length : first.length = second.length) (fits : ∀ n ∈ first, n < 256 ^ width)
    (fits' : ∀ n ∈ second, n < 256 ^ width)
    (same : first.flatMap (bytesOf width) ++ rest = second.flatMap (bytesOf width) ++ rest') :
    first = second ∧ rest = rest' := by
  induction first generalizing second with
  | nil =>
    obtain rfl := List.length_eq_zero_iff.mp length.symm
    exact ⟨rfl, same⟩
  | cons n first ih =>
    obtain ⟨m, second, rfl⟩ := List.exists_of_length_succ second length.symm
    rw [List.flatMap_cons, List.flatMap_cons, List.append_assoc, List.append_assoc] at same
    obtain ⟨head, tail⟩ := List.append_inj same (by rw [length_bytesOf, length_bytesOf])
    obtain ⟨rfl, rest⟩ := ih (Nat.succ.inj length) (fun k member => fits k (List.mem_cons_of_mem n member))
      (fun k member => fits' k (List.mem_cons_of_mem m member)) tail
    exact ⟨by rw [bytesOf_inj (fits n List.mem_cons_self) (fits' m List.mem_cons_self) head], rest⟩

def bytesOfInt (width : Nat) (value : Int) : List UInt8 :=
  bytesOf width (value % (256 ^ width : Nat)).toNat

def intOf (bytes : List UInt8) : Int := (natOf bytes : Int).bmod (256 ^ bytes.length)

@[simp] theorem length_bytesOfInt (width : Nat) (value : Int) :
    (bytesOfInt width value).length = width := length_bytesOf _ _

/-- The values that a width can represent. -/
def Signed (width : Nat) (value : Int) : Prop :=
  -(256 ^ width : Nat) ≤ 2 * value ∧ 2 * value < (256 ^ width : Nat)

theorem intOf_bytesOfInt {width : Nat} {value : Int} (fits : Signed width value) :
    intOf (bytesOfInt width value) = value := by
  have positive : 0 < 256 ^ width := by positivity
  obtain ⟨low, high⟩ := fits
  have nonneg : 0 ≤ value % (256 ^ width : Nat) := Int.emod_nonneg _ (by omega)
  have below : value % (256 ^ width : Nat) < (256 ^ width : Nat) :=
    Int.emod_lt_of_pos _ (by omega)
  rw [intOf, length_bytesOfInt, bytesOfInt, natOf_bytesOf (by omega), Int.toNat_of_nonneg nonneg,
    Int.emod_bmod]
  exact Int.bmod_eq_of_le_mul_two (by omega) (by omega)

theorem intOf_signed {bytes : List UInt8} (some : bytes ≠ []) : Signed bytes.length (intOf bytes) := by
  have positive : 0 < 256 ^ bytes.length := by positivity
  obtain ⟨byte, rest, rfl⟩ := List.exists_cons_of_ne_nil some
  have even : 256 ^ (byte :: rest).length = 2 * (128 * 256 ^ rest.length) := by
    rw [List.length_cons, Nat.pow_succ]
    ring
  have low := Int.le_bmod (x := (natOf (byte :: rest) : Int)) positive
  have high := Int.bmod_lt (x := (natOf (byte :: rest) : Int)) positive
  rw [Signed, intOf]
  rw [even] at low high ⊢
  constructor <;> omega

theorem bytesOfInt_intOf (bytes : List UInt8) : bytesOfInt bytes.length (intOf bytes) = bytes := by
  have below := natOf_lt bytes
  have same : (intOf bytes % (256 ^ bytes.length : Nat)).toNat = natOf bytes := by
    rw [intOf, Int.bmod_emod, Int.emod_eq_of_lt (by omega) (by omega), Int.toNat_natCast]
  rw [bytesOfInt, same, bytesOf_natOf]

end LittleEndian
