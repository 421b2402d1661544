import Mathlib.Tactic.Linarith
import Mathlib.Tactic.Ring

/-!
# Rounded quotients

Two ways in which programs compute with ratios of integers.

A rate of `n` parts of which one takes `p` is stored as the rounded `n / p`, and `c` counts at this
rate are converted by another division.

* `mul_div_le_of_rate`, `of_rate_mul_le`: the converted count is at least the exact one, rounded
  down, and exceeds it by the factor `(n / p + 1) / (n / p)` at most.

The integer nearest to `b * i / a` is `(2 * b * i + a) / a / 2`.

* `nearest_le`, `lt_nearest`: it is off by one half at most;
* `nearest_mono`, `nearest_succ_le`: it grows with `i`, by one at most as long as `b ≤ a`.
-/

namespace Rounding

section Rate

variable {n p c s b : ℕ}

/-- A rounded rate is too low, so that `c` counts at it are not converted to less than
`c * p / b`. -/
theorem mul_div_le_of_rate (hn : n = s * b) (hb : 0 < b) (hrate : 0 < n / p) :
    c * p / b ≤ c * s / (n / p) := by
  rw [Nat.le_div_iff_mul_le hrate]
  have hdiv : c * p / b * b ≤ c * p := Nat.div_mul_le_self _ _
  have hp : p * (n / p) ≤ n := Nat.mul_div_le _ _
  -- both sides times `b`, where the exact ratio is `c * n`
  refine Nat.le_of_mul_le_mul_right ?_ hb
  calc c * p / b * (n / p) * b
      = c * p / b * b * (n / p) := by ring
    _ ≤ c * p * (n / p) := Nat.mul_le_mul_right _ hdiv
    _ = c * (p * (n / p)) := by ring
    _ ≤ c * n := Nat.mul_le_mul_left _ hp
    _ = c * s * b := by rw [hn]; ring

/-- By how much it can be too low. -/
theorem of_rate_mul_le (hn : n = s * b) (hp : 0 < p) :
    c * s / (n / p) * (n / p) * b ≤ c * p * (n / p + 1) := by
  have hlt : n < p * (n / p + 1) := Nat.lt_mul_div_succ n hp
  calc c * s / (n / p) * (n / p) * b
      ≤ c * s * b := Nat.mul_le_mul_right _ (Nat.div_mul_le_self _ _)
    _ = c * n := by rw [hn]; ring
    _ ≤ c * (p * (n / p + 1)) := Nat.mul_le_mul_left _ hlt.le
    _ = c * p * (n / p + 1) := by ring

end Rate

section Nearest

variable {a b i j : ℤ}

/-- The integer nearest to `b * i / a`, upwards where two are. -/
def nearest (a b i : ℤ) : ℤ := (2 * b * i + a) / a / 2

/-- Rounding to the nearest as a single division. -/
theorem nearest_eq (ha : 0 < a) : nearest a b i = (2 * b * i + a) / (2 * a) := by
  rw [nearest, Int.ediv_ediv_of_nonneg ha.le, mul_comm a 2]

/-- It is not more than one half too high. -/
theorem nearest_le (ha : 0 < a) : 2 * (nearest a b i * a - i * b) ≤ a := by
  have hle := Int.ediv_mul_le (2 * b * i + a) (show (2 * a) ≠ 0 by omega)
  rw [← nearest_eq ha] at hle
  linarith

/-- It is less than one half too low. -/
theorem lt_nearest (ha : 0 < a) : 2 * (i * b - nearest a b i * a) < a := by
  have hlt := Int.lt_ediv_add_one_mul_self (2 * b * i + a) (show 0 < 2 * a by omega)
  rw [← nearest_eq ha] at hlt
  linarith

/-- It is determined by being that near. -/
theorem nearest_le_iff (ha : 0 < a) (m : ℤ) : m ≤ nearest a b i ↔ m * (2 * a) ≤ 2 * b * i + a := by
  rw [nearest_eq ha, Int.le_ediv_iff_mul_le (by omega)]

theorem nearest_mono (ha : 0 < a) (hb : 0 ≤ b) (hij : i ≤ j) : nearest a b i ≤ nearest a b j := by
  rw [nearest_eq ha, nearest_eq ha]
  refine Int.ediv_le_ediv (by omega) ?_
  have hmul := mul_le_mul_of_nonneg_left hij hb
  linarith

/-- One step further it is one higher at most. -/
theorem nearest_succ_le (ha : 0 < a) (hba : b ≤ a) : nearest a b (i + 1) ≤ nearest a b i + 1 := by
  have hlt := lt_nearest (b := b) (i := i) ha
  have hle := nearest_le (b := b) (i := i + 1) ha
  by_contra hgt
  have hgt' : nearest a b i + 2 ≤ nearest a b (i + 1) := by omega
  have hmul := mul_le_mul_of_nonneg_right hgt' ha.le
  linarith

theorem nearest_nonneg (ha : 0 < a) (hb : 0 ≤ b) (hi : 0 ≤ i) : 0 ≤ nearest a b i := by
  rw [nearest_le_iff ha, zero_mul]
  have hmul := mul_nonneg hb hi
  linarith

/-- Up to `a` it does not exceed `b`. -/
theorem nearest_le_of_le (ha : 0 < a) (hb : 0 ≤ b) (hi : i ≤ a) : nearest a b i ≤ b := by
  have hle := nearest_le (b := b) (i := i) ha
  by_contra hgt
  have hgt' : b + 1 ≤ nearest a b i := by omega
  have hmul := mul_le_mul_of_nonneg_right hgt' ha.le
  have hib := mul_le_mul_of_nonneg_right hi hb
  linarith

end Nearest

end Rounding
