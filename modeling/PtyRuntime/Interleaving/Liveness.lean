import Mathlib.Algebra.Order.Group.Nat

/-! Progress of unending schedules. What is left to be done is measured by a number that
no step raises; while it is positive there is an agent whose next step lowers it, and
nothing the others do takes that step away without lowering it themselves. -/
namespace Liveness

variable {σ ε α : Type}

/-- The states an unending schedule goes through. -/
def states (step : σ → ε → σ) (s : σ) (schedule : Nat → ε) : Nat → σ
  | 0 => s
  | n + 1 => step (states step s schedule n) (schedule n)

/-- An agent that can go on is scheduled in the end, unless something stops it first. -/
def WeaklyFair (agent : ε → Option α) (enabled : σ → α → Prop) (trace : Nat → σ)
    (schedule : Nat → ε) : Prop :=
  ∀ a n, (∀ m, n ≤ m → enabled (trace m) a) → ∃ m, n ≤ m ∧ agent (schedule m) = some a

/-- What lies ahead is counted by `left`, and `useful` tells whose step lowers it. -/
structure Effort (step : σ → ε → σ) (agent : ε → Option α) (enabled : σ → α → Prop)
    (allowed : ε → Prop) (inv : σ → Prop) (left : σ → Nat) (useful : σ → α → Prop) : Prop where
  keeps : ∀ {s e}, allowed e → inv s → inv (step s e)
  within : ∀ {s e}, allowed e → inv s → left (step s e) ≤ left s
  someone : ∀ {s}, inv s → 0 < left s → ∃ a, useful s a
  able : ∀ {s a}, inv s → useful s a → enabled s a
  waits : ∀ {s e a}, allowed e → inv s → useful s a → agent e ≠ some a →
    left (step s e) < left s ∨ useful (step s e) a
  works : ∀ {s e a}, allowed e → inv s → useful s a → agent e = some a → left (step s e) < left s

variable {step : σ → ε → σ} {agent : ε → Option α} {enabled : σ → α → Prop} {allowed : ε → Prop}
  {inv : σ → Prop} {left : σ → Nat} {useful : σ → α → Prop} {s : σ} {schedule : Nat → ε}

namespace Effort

variable (effort : Effort step agent enabled allowed inv left useful)
include effort

theorem kept {n m : Nat} (later : n ≤ m) (calm : ∀ k, n ≤ k → allowed (schedule k))
    (holds : inv (states step s schedule n)) :
    inv (states step s schedule m) ∧ left (states step s schedule m) ≤ left (states step s schedule n) := by
  induction m, later using Nat.le_induction with
  | base => exact ⟨holds, Nat.le_refl _⟩
  | succ m later ih => exact ⟨effort.keeps (calm m later) ih.1, (effort.within (calm m later) ih.1).trans ih.2⟩

/-- A useful step stays useful until something is done. -/
theorem lasting {n m : Nat} {a : α} (later : n ≤ m) (calm : ∀ k, n ≤ k → allowed (schedule k))
    (holds : inv (states step s schedule n)) (use : useful (states step s schedule n) a)
    (unscheduled : ∀ k, n ≤ k → k < m → agent (schedule k) ≠ some a) :
    (∃ k, n ≤ k ∧ left (states step s schedule k) < left (states step s schedule n)) ∨
      useful (states step s schedule m) a := by
  induction m, later using Nat.le_induction with
  | base => exact .inr use
  | succ m later ih =>
    rcases ih fun k since before => unscheduled k since (before.trans m.lt_succ_self) with done | use
    · exact .inl done
    · obtain ⟨now, bound⟩ := effort.kept later calm holds
      rcases effort.waits (calm m later) now use (unscheduled m later m.lt_succ_self) with lower | still
      · exact .inl ⟨m + 1, Nat.le_succ_of_le later, lower.trans_le bound⟩
      · exact .inr still

/-- As long as anything is left, some of it is done. -/
theorem descends (fair : WeaklyFair agent enabled (states step s schedule) schedule) {n : Nat}
    (calm : ∀ k, n ≤ k → allowed (schedule k)) (holds : inv (states step s schedule n))
    (more : 0 < left (states step s schedule n)) :
    ∃ m, n ≤ m ∧ left (states step s schedule m) < left (states step s schedule n) := by
  by_contra stuck
  rw [not_exists] at stuck
  obtain ⟨a, use⟩ := effort.someone holds more
  -- Without progress the step stays useful for as long as it is not taken, so it is taken.
  have idle : ∀ m, n ≤ m → agent (schedule m) ≠ some a := by
    intro m
    induction m using Nat.strong_induction_on with
    | _ m ih =>
      intro later taken
      obtain ⟨now, bound⟩ := effort.kept later calm holds
      rcases effort.lasting later calm holds use fun k since before => ih k before since with ⟨k, since, lower⟩ | use
      · exact stuck k ⟨since, lower⟩
      · exact stuck (m + 1) ⟨Nat.le_succ_of_le later, (effort.works (calm m later) now use taken).trans_le bound⟩
  obtain ⟨m, later, taken⟩ := fair a n fun m later => by
    rcases effort.lasting later calm holds use fun k since _ => idle k since with ⟨k, since, lower⟩ | use
    · exact absurd ⟨since, lower⟩ (stuck k)
    · exact effort.able (effort.kept later calm holds).1 use
  exact idle m later taken

/-- In the end nothing is left. -/
theorem finishes (fair : WeaklyFair agent enabled (states step s schedule) schedule) {n : Nat}
    (calm : ∀ k, n ≤ k → allowed (schedule k)) (holds : inv (states step s schedule n)) :
    ∃ m, n ≤ m ∧ inv (states step s schedule m) ∧ left (states step s schedule m) = 0 := by
  induction bound : left (states step s schedule n) using Nat.strong_induction_on generalizing n with
  | _ count ih =>
    rcases Nat.eq_zero_or_pos count with rfl | more
    · exact ⟨n, Nat.le_refl n, holds, bound⟩
    · obtain ⟨m, later, lower⟩ := effort.descends fair calm holds (bound ▸ more)
      have calm' : ∀ k, m ≤ k → allowed (schedule k) := fun k since => calm k (later.trans since)
      obtain ⟨last, since, kept, done⟩ := ih _ (bound ▸ lower) calm' (effort.kept later calm holds).1 rfl
      exact ⟨last, later.trans since, kept, done⟩

end Effort
end Liveness
