import Mathlib.Tactic.Common
import Mathlib.Algebra.Group.Nat.Defs

/-!
# Naturals as doubles

A double has fifty-three bits: a natural number below 2^53 is one (`ofNat_of_lt`), a larger one
is rounded, to the nearest and in a tie to the even one.
-/

namespace Doubles

/-- The double that a natural number is rounded to. -/
def ofNat (n : Nat) : Nat :=
  let ulp := 2 ^ (n.log2 - 52)
  if ulp < 2 * (n % ulp) ∨ (2 * (n % ulp) = ulp ∧ n / ulp % 2 = 1) then (n / ulp + 1) * ulp
  else n / ulp * ulp

/-- **Below 2^53 nothing is rounded.** -/
theorem ofNat_of_lt {n : Nat} (h : n < 2 ^ 53) : ofNat n = n := by
  have hlog : n.log2 - 52 = 0 := by
    rcases Nat.eq_zero_or_pos n with rfl | hpos
    · simp
    · have := (Nat.log2_lt (Nat.pos_iff_ne_zero.1 hpos)).2 h
      omega
  simp [ofNat, hlog, Nat.mod_one]

end Doubles
