import Mathlib.Algebra.Order.Round
import Mathlib.Data.Rat.Floor
import Mathlib.Tactic.FieldSimp
import Mathlib.Tactic.Ring

/-! # Rounding half up

The quotient of two natural numbers rounded half up in whole numbers. It depends on the fraction
alone, and it is the rounding of the rational number.
-/

namespace Rounding

def halfUp (n d : Nat) : Nat := (n * 2 + d) / (d * 2)

variable {n d m e k : Nat}

theorem halfUp_mul_left (hk : 0 < k) : halfUp (k * n) (k * d) = halfUp n d := by
  have hNumerator : k * n * 2 + k * d = k * (n * 2 + d) := by ring
  rw [halfUp, halfUp, hNumerator, Nat.mul_assoc, Nat.mul_div_mul_left _ _ hk]

theorem halfUp_eq_round (hd : 0 < d) : (halfUp n d : ℤ) = round ((n : ℚ) / d) := by
  have hPos : (d : ℚ) ≠ 0 := Nat.cast_ne_zero.mpr hd.ne'
  have hHalf : (n : ℚ) / d + 1 / 2 = ((n * 2 + d : Nat) : ℚ) / (d * 2 : Nat) := by
    push_cast
    field_simp
  rw [round_eq, hHalf, Rat.floor_natCast_div_natCast]
  rfl

end Rounding
