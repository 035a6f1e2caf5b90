import Mathlib.Algebra.Order.Ring.Nat
import Mathlib.Data.List.Basic

/-! Session identities, lifetime-bound stream positions and the fixed-width
counters they are built from. Offsets are natural numbers; every operation that
can leave the 64-bit range goes through a checked operation, as in the source. -/
namespace PtyRuntime

abbrev Bytes := List UInt8

/-- `u64::MAX`; `usize` has the same range on every supported target. -/
def u64Max : Nat := 2 ^ 64 - 1

/-- `u64::checked_add` and `usize::checked_add`. -/
def checkedAdd (a b : Nat) : Option Nat :=
  if a + b ≤ u64Max then some (a + b) else none

/-- `u64::checked_sub`. -/
def checkedSub (a b : Nat) : Option Nat :=
  if b ≤ a then some (a - b) else none

theorem checkedAdd_eq_some {a b c : Nat} :
    checkedAdd a b = some c ↔ a + b ≤ u64Max ∧ c = a + b := by
  unfold checkedAdd
  split
  · simp only [Option.some.injEq]
    omega
  · simp only [reduceCtorEq, false_iff]
    omega

theorem checkedAdd_eq_none {a b : Nat} : checkedAdd a b = none ↔ u64Max < a + b := by
  unfold checkedAdd
  split
  · simp only [reduceCtorEq, false_iff]
    omega
  · simp only [true_iff]
    omega

theorem checkedSub_eq_some {a b c : Nat} : checkedSub a b = some c ↔ b ≤ a ∧ c = a - b := by
  unfold checkedSub
  split
  · simp only [Option.some.injEq]
    omega
  · simp only [reduceCtorEq, false_iff]
    omega

/-- A runtime-issued lifetime; registry names alone cannot identify byte streams. -/
structure SessionLifetime where
  owner : Nat
  sequence : Nat
  deriving DecidableEq, Repr

/-- An absolute byte position scoped to exactly one session lifetime. -/
structure ReplayCursor where
  lifetime : SessionLifetime
  offset : Nat
  deriving DecidableEq, Repr

end PtyRuntime
