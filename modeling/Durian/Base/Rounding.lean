import Mathlib.Algebra.Order.Floor.Div

/-!
# Converting an amount forth and back

An amount is converted by a ratio, some of it is spent, and what is left is converted back. Both
conversions round down, so what is lost on the way is the spent part converted back, rounded up, or
the same for one unit more.
-/

namespace Effects

/-- What is left of `g` after `c` of it, in units of `mul / div`, were spent. -/
def convertedBack (g mul div c : ℕ) : ℕ := (g * div / mul - c) * mul / div

variable {g mul div c : ℕ}

/-- The units left weigh no more than what is left of the amount. -/
theorem left_mul_add_le (hc : c ≤ g * div / mul) : (g * div / mul - c) * mul + c * mul ≤ g * div := by
  rw [← Nat.add_mul, Nat.sub_add_cancel hc]
  exact Nat.div_mul_le_self _ _

theorem lt_left_mul_add (hmul : 0 < mul) (hc : c ≤ g * div / mul) :
    g * div < (g * div / mul - c) * mul + (c + 1) * mul := by
  have hfloor : g * div < (g * div / mul + 1) * mul := by
    rw [Nat.mul_comm _ mul]
    exact Nat.lt_mul_div_succ _ hmul
  rwa [← Nat.add_mul, ← Nat.add_assoc, Nat.sub_add_cancel hc]

theorem convertedBack_le (hc : c ≤ g * div / mul) : convertedBack g mul div c ≤ g := by
  have hleft := left_mul_add_le hc
  refine Nat.div_le_of_le_mul ?_
  rw [Nat.mul_comm div]
  omega

theorem ceilDiv_le_lost (hdiv : 0 < div) (hc : c ≤ g * div / mul) :
    (c * mul) ⌈/⌉ div ≤ g - convertedBack g mul div c := by
  have hleft := left_mul_add_le hc
  have hback : convertedBack g mul div c * div ≤ (g * div / mul - c) * mul := Nat.div_mul_le_self _ _
  have hle := convertedBack_le hc
  rw [ceilDiv_le_iff_le_mul hdiv, Nat.mul_comm div, Nat.sub_mul]
  omega

/-- At most what was spent is lost and one unit more. -/
theorem lost_le_ceilDiv (hmul : 0 < mul) (hdiv : 0 < div) (hc : c ≤ g * div / mul) :
    g - convertedBack g mul div c ≤ ((c + 1) * mul) ⌈/⌉ div := by
  have hleft := lt_left_mul_add hmul hc
  have hceil : (c + 1) * mul ≤ div * (((c + 1) * mul) ⌈/⌉ div) :=
    (ceilDiv_le_iff_le_mul hdiv).mp le_rfl
  have hback : g - ((c + 1) * mul) ⌈/⌉ div ≤ convertedBack g mul div c := by
    rw [convertedBack, Nat.le_div_iff_mul_le hdiv, Nat.sub_mul, Nat.mul_comm (_ ⌈/⌉ div) div]
    omega
  omega

end Effects
