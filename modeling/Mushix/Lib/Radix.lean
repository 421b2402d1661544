import Mathlib.Data.Nat.Basic
import Mathlib.Algebra.Order.Ring.Nat

/-!
# Digits and blocks of a number

In base `B` the digit of `n` at height `h` is `n / B ^ h % B`, and the numbers that agree with
`n` from height `h` on form a block of `B ^ h` numbers. `blockEnd` is the first number behind
the block of `n`.

A loop over the digits at height `h` walks through a block of height `h + 1` from block to
block of height `h`:

* `blockEnd_of_last`: behind the last digit both blocks end;
* `blockEnd_of_not_last`: behind any other digit the next one follows.
-/

namespace Radix

variable {B h n m q i : ℕ}

/-- The digit of `n` at height `h`. -/
def digit (B h n : ℕ) : ℕ := n / B ^ h % B

/-- The first number behind the block of `n` at height `h`. -/
def blockEnd (B h n : ℕ) : ℕ := (n / B ^ h + 1) * B ^ h

@[simp]
theorem digit_zero (B n : ℕ) : digit B 0 n = n % B := by rw [digit, Nat.pow_zero, Nat.div_one]

/-- A digit is below the base. -/
theorem digit_lt (hB : 0 < B) (h n : ℕ) : digit B h n < B := Nat.mod_lt _ hB

/-- A prefix of a number is the shorter prefix and one digit. -/
theorem div_pow_eq (B h n : ℕ) : n / B ^ h = B * (n / B ^ (h + 1)) + digit B h n := by
  rw [Nat.pow_succ, ← Nat.div_div_eq_div_mul, digit, Nat.div_add_mod]

/-- The digit is the remainder of what is left above it. -/
theorem digit_of_div_eq (hi : i < B) (hn : n / B ^ h = B * q + i) : digit B h n = i := by
  rw [digit, hn, Nat.mul_add_mod, Nat.mod_eq_of_lt hi]

theorem div_succ_of_div_eq (hi : i < B) (hn : n / B ^ h = B * q + i) : n / B ^ (h + 1) = q := by
  rw [Nat.pow_succ, ← Nat.div_div_eq_div_mul, hn, Nat.mul_add_div (by omega),
    Nat.div_eq_of_lt hi, Nat.add_zero]

@[simp]
theorem blockEnd_zero (B n : ℕ) : blockEnd B 0 n = n + 1 := by
  rw [blockEnd, Nat.pow_zero, Nat.div_one, Nat.mul_one]

/-- A number is below the end of its block. -/
theorem lt_blockEnd (hB : 0 < B) (h n : ℕ) : n < blockEnd B h n :=
  Nat.lt_mul_of_div_lt (Nat.lt_succ_self _) (Nat.pow_pos hB)

/-- The end of a block begins the next one. -/
theorem blockEnd_div (hB : 0 < B) (h n : ℕ) : blockEnd B h n / B ^ h = n / B ^ h + 1 :=
  Nat.mul_div_cancel _ (Nat.pow_pos hB)

/-- The end of a block is not behind the end of the larger block. -/
theorem blockEnd_le_succ (hB : 0 < B) (h n : ℕ) : blockEnd B h n ≤ blockEnd B (h + 1) n := by
  have hdigit := digit_lt hB h n
  have hpre := div_pow_eq B h n
  have hle : n / B ^ h + 1 ≤ B * (n / B ^ (h + 1) + 1) := by
    rw [Nat.mul_succ]
    omega
  calc blockEnd B h n ≤ B * (n / B ^ (h + 1) + 1) * B ^ h := Nat.mul_le_mul_right _ hle
    _ = blockEnd B (h + 1) n := by rw [blockEnd, Nat.mul_comm B, Nat.mul_assoc, Nat.pow_succ']

/-- Behind the last digit the larger block ends as well. -/
theorem blockEnd_of_last (hlast : digit B h n + 1 = B) :
    blockEnd B h n = blockEnd B (h + 1) n := by
  have hpre := div_pow_eq B h n
  have heq : n / B ^ h + 1 = B * (n / B ^ (h + 1) + 1) := by
    rw [Nat.mul_succ]
    omega
  rw [blockEnd, heq, blockEnd, Nat.mul_comm B, Nat.mul_assoc, Nat.pow_succ']

/-- Behind any other digit the next digit of the same block follows. -/
theorem blockEnd_of_not_last (hnot : digit B h n + 1 < B) :
    blockEnd B h n / B ^ (h + 1) = n / B ^ (h + 1) ∧
      digit B h (blockEnd B h n) = digit B h n + 1 := by
  have hnext : blockEnd B h n / B ^ h = B * (n / B ^ (h + 1)) + (digit B h n + 1) := by
    rw [blockEnd_div (by omega), div_pow_eq B h n, Nat.add_assoc]
  exact ⟨div_succ_of_div_eq hnot hnext, digit_of_div_eq hnot hnext⟩

/-- Numbers of one block have the same block end. -/
theorem blockEnd_congr (hdiv : m / B ^ h = n / B ^ h) : blockEnd B h m = blockEnd B h n := by
  rw [blockEnd, hdiv, blockEnd]

end Radix
