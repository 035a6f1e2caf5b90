import Mathlib.Tactic.Common

/-! Places on a ring: how far one lies ahead of another. -/
namespace Cyclic

/-- The steps ahead from `start` to `place` on a ring of `size` places. -/
def distance (size start place : Nat) : Nat := (place + size - start) % size

variable {size start place offset : Nat}

theorem mod_cases (size value : Nat) (bound : value < 2 * size) :
    value < size ∧ value % size = value ∨ size ≤ value ∧ value % size = value - size := by
  rcases Nat.lt_or_ge value size with below | above
  · exact .inl ⟨below, Nat.mod_eq_of_lt below⟩
  · refine .inr ⟨above, ?_⟩
    rw [Nat.mod_eq_sub_mod above, Nat.mod_eq_of_lt (by omega)]

theorem distance_lt (start : Nat) (placed : place < size) : distance size start place < size :=
  Nat.mod_lt _ (Nat.zero_lt_of_lt placed)

/-- Going the distance arrives. -/
theorem add_distance (started : start < size) (placed : place < size) :
    (start + distance size start place) % size = place := by
  have ahead := mod_cases size (place + size - start) (by omega)
  have arrival := mod_cases size (start + distance size start place)
  unfold distance at arrival ⊢
  omega

/-- Two places at different offsets below the size are different. -/
theorem add_inj {other : Nat} (started : start < size) (near : offset < size) (far : other < size)
    (same : (start + offset) % size = (start + other) % size) : offset = other := by
  have first := mod_cases size (start + offset) (by omega)
  have second := mod_cases size (start + other) (by omega)
  omega

/-- The place after one that is nearer than `place` is nearer to it. -/
theorem distance_past (started : start < size) (placed : place < size)
    (nearer : offset < distance size start place) :
    distance size (((start + offset) % size + 1) % size) place + offset + 1 = distance size start place := by
  have bound := distance_lt start placed
  have ahead := mod_cases size (place + size - start) (by omega)
  have passed := mod_cases size (start + offset) (by omega)
  have next := mod_cases size ((start + offset) % size + 1) (by omega)
  unfold distance at nearer bound ⊢
  have rest := mod_cases size (place + size - ((start + offset) % size + 1) % size) (by omega)
  omega

end Cyclic
