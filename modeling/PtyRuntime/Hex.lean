import Mathlib.Algebra.Order.Ring.Nat
import Mathlib.Tactic.Common

/-! Numbers as hexadecimal digits. -/
namespace PtyRuntime

/-- The last `width` hexadecimal digits of a number, in lower case. -/
def hex : Nat → Nat → List Char
  | 0, _ => []
  | width + 1, n => hex width (n / 16) ++ [Nat.digitChar (n % 16)]

theorem length_hex (width n : Nat) : (hex width n).length = width := by
  induction width generalizing n with
  | zero => rfl
  | succ width ih => rw [hex, List.length_append, ih, List.length_singleton]

theorem digitChar_injective : ∀ a < 16, ∀ b < 16, Nat.digitChar a = Nat.digitChar b → a = b := by
  decide

theorem hex_injective {width m n : Nat} (low : m < 16 ^ width) (high : n < 16 ^ width)
    (same : hex width m = hex width n) : m = n := by
  induction width generalizing m n with
  | zero => omega
  | succ width ih =>
    obtain ⟨rest, last⟩ := List.append_inj same (by rw [length_hex, length_hex])
    have digit := digitChar_injective _ (Nat.mod_lt m (by decide)) _ (Nat.mod_lt n (by decide))
      (List.singleton_inj.mp last)
    have above := ih (Nat.div_lt_of_lt_mul (by rw [pow_succ'] at low; exact low))
      (Nat.div_lt_of_lt_mul (by rw [pow_succ'] at high; exact high)) rest
    omega

end PtyRuntime
