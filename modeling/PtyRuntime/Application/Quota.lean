import PtyRuntime.Domain.Identity
import Mathlib.Data.Nat.Basic

/-! Shared counting budgets and registered tasks, as every application component
uses them. -/
namespace PtyRuntime

/-- A registered task; only its identity matters. -/
abbrev Waker := Nat

/-- A shared counting budget. -/
structure Quota where
  limit : Nat
  used : Nat
  deriving DecidableEq, Repr

namespace Quota

def acquire (q : Quota) (amount : Nat) : Bool × Quota :=
  match (checkedAdd q.used amount).filter (· ≤ q.limit) with
  | none => (false, q)
  | some used => (true, { q with used })

def release (q : Quota) (amount : Nat) : Quota := { q with used := q.used - amount }

theorem acquire_eq (q : Quota) (amount : Nat) :
    q.acquire amount =
      if q.used + amount ≤ u64Max ∧ q.used + amount ≤ q.limit then
        (true, { q with used := q.used + amount })
      else (false, q) := by
  unfold acquire
  by_cases fits : q.used + amount ≤ u64Max
  · by_cases room : q.used + amount ≤ q.limit
    · rw [if_pos ⟨fits, room⟩, checkedAdd, if_pos fits, Option.filter_some, if_pos (by simpa using room)]
    · rw [if_neg (fun both => room both.2), checkedAdd, if_pos fits, Option.filter_some,
        if_neg (by simpa using room)]
  · rw [if_neg (fun both => fits both.1), checkedAdd, if_neg fits]
    rfl

theorem acquire_granted {q quota : Quota} {amount : Nat}
    (granted : q.acquire amount = (true, quota)) : quota = { q with used := q.used + amount } := by
  rw [acquire_eq] at granted
  split at granted
  · exact (Prod.mk.inj granted).2.symm
  · cases granted

end Quota

end PtyRuntime
