import Mushix.Lib.BitField
import Mushix.Result

/-!
# Arithmetic on `usize` and `u64`

Machine words are natural numbers below `2 ^ 64`. In the default build profile an operation
whose result does not fit panics.

* `Usize.add`, `Usize.sub`, `Usize.mul`: the checked operators;
* `Usize.alignDown`: the idiom `x & !(align - 1)`.
-/

namespace Mushix

namespace Usize

variable {σ : Type}

/-- Addition, which panics on an overflow. -/
def add (a b : ℕ) : Method σ ℕ :=
  if a + b < 2 ^ 64 then pure (a + b) else throw (.panic "attempt to add with overflow")

/-- Subtraction, which panics below 0. -/
def sub (a b : ℕ) : Method σ ℕ :=
  if b ≤ a then pure (a - b) else throw (.panic "attempt to subtract with overflow")

/-- Multiplication, which panics on an overflow. -/
def mul (a b : ℕ) : Method σ ℕ :=
  if a * b < 2 ^ 64 then pure (a * b) else throw (.panic "attempt to multiply with overflow")

/-- A number without the bits below an alignment. -/
def alignDown (a align : ℕ) : ℕ :=
  (BitVec.ofNat 64 a &&& ~~~BitVec.ofNat 64 (align - 1)).toNat

variable {β : Type} {a b : ℕ} {s : σ}

theorem add_bind (h : a + b < 2 ^ 64) (f : ℕ → Method σ β) : (add a b >>= f) s = f (a + b) s := by
  rw [add, if_pos h]
  rfl

theorem sub_bind (h : b ≤ a) (f : ℕ → Method σ β) : (sub a b >>= f) s = f (a - b) s := by
  rw [sub, if_pos h]
  rfl

theorem mul_bind (h : a * b < 2 ^ 64) (f : ℕ → Method σ β) : (mul a b >>= f) s = f (a * b) s := by
  rw [mul, if_pos h]
  rfl

theorem run_add (h : a + b < 2 ^ 64) : (add a b : Method σ ℕ) s = .ok (a + b) s := by
  rw [add, if_pos h]
  rfl

/-- With a power of two, `x & !(align - 1)` rounds down. -/
theorem alignDown_eq {k : ℕ} (ha : a < 2 ^ 64) (hk : k < 64) :
    alignDown a (2 ^ k) = a - a % 2 ^ k := by
  have hlt : 2 ^ k - 1 < 2 ^ 64 :=
    (Nat.sub_le _ _).trans_lt (Nat.pow_lt_pow_right (by decide) hk)
  have hmask : BitVec.ofNat 64 (2 ^ k - 1) = BitField.lowMask 64 k := by
    apply BitVec.eq_of_toNat_eq
    rw [BitField.toNat_lowMask hk, BitVec.toNat_ofNat, Nat.mod_eq_of_lt hlt]
  rw [alignDown, hmask, BitField.toNat_and_not_lowMask hk, BitVec.toNat_ofNat,
    Nat.mod_eq_of_lt ha]

end Usize

end Mushix
