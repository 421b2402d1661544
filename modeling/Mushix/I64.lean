import Mathlib.Algebra.Order.Group.Unbundled.Abs
import Mathlib.Algebra.Order.Ring.Int
import Mathlib.Data.Int.Basic
import Mushix.Result

/-!
# Arithmetic on `i64`

Signed machine integers are integers between `-2 ^ 63` and `2 ^ 63`. As for the unsigned ones, an
operation whose result does not fit panics in the default build profile.

* `I64.add`, `I64.sub`, `I64.mul`, `I64.div`, `I64.abs`: the checked operators;
* `I64.range`: `lo..hi`.
-/

namespace Mushix

namespace I64

variable {σ : Type}

/-- The integer is a value of `i64`. -/
def Fits (a : ℤ) : Prop := -2 ^ 63 ≤ a ∧ a < 2 ^ 63

instance : DecidablePred Fits := fun a => inferInstanceAs (Decidable (-2 ^ 63 ≤ a ∧ a < 2 ^ 63))

/-- The result of an operation, or a panic where it does not fit. -/
def checked (msg : String) (a : ℤ) : Method σ ℤ :=
  if Fits a then pure a else throw (.panic msg)

/-- Addition, which panics on an overflow. -/
def add (a b : ℤ) : Method σ ℤ := checked "attempt to add with overflow" (a + b)

/-- Subtraction, which panics on an overflow. -/
def sub (a b : ℤ) : Method σ ℤ := checked "attempt to subtract with overflow" (a - b)

/-- Multiplication, which panics on an overflow. -/
def mul (a b : ℤ) : Method σ ℤ := checked "attempt to multiply with overflow" (a * b)

/-- `a / b`, which is rounded towards zero. -/
def div (a b : ℤ) : Method σ ℤ :=
  if b = 0 then throw (.panic "attempt to divide by zero")
  else checked "attempt to divide with overflow" (a.tdiv b)

/-- `abs`, which panics for the least integer. -/
def abs (a : ℤ) : Method σ ℤ := checked "attempt to negate with overflow" |a|

/-- The integers of a range `lo..hi`, in their order. -/
def range (lo hi : ℤ) : List ℤ := (List.range (hi - lo).toNat).map fun i : ℕ => lo + i

variable {β : Type} {a b : ℤ} {s : σ}

theorem checked_bind (h : Fits a) (msg : String) (f : ℤ → Method σ β) :
    (checked msg a >>= f) s = f a s := by
  rw [checked, if_pos h]
  rfl

theorem add_bind (h : Fits (a + b)) (f : ℤ → Method σ β) : (add a b >>= f) s = f (a + b) s :=
  checked_bind h _ f

theorem sub_bind (h : Fits (a - b)) (f : ℤ → Method σ β) : (sub a b >>= f) s = f (a - b) s :=
  checked_bind h _ f

theorem mul_bind (h : Fits (a * b)) (f : ℤ → Method σ β) : (mul a b >>= f) s = f (a * b) s :=
  checked_bind h _ f

theorem abs_bind (h : Fits |a|) (f : ℤ → Method σ β) : (abs a >>= f) s = f |a| s :=
  checked_bind h _ f

/-- A quotient of numbers that are not negative is rounded down. -/
theorem div_bind (ha : 0 ≤ a) (hb : 0 < b) (h : Fits a) (f : ℤ → Method σ β) :
    (div a b >>= f) s = f (a / b) s := by
  have hquot : Fits (a / b) :=
    ⟨(by decide : (-2 ^ 63 : ℤ) ≤ 0).trans (Int.ediv_nonneg ha hb.le),
      (Int.ediv_le_self b ha).trans_lt h.2⟩
  rw [div, if_neg hb.ne', Int.tdiv_eq_ediv_of_nonneg ha]
  exact checked_bind hquot _ f

/-- Which numbers fit among those that are not negative. -/
theorem fits_of_nonneg (h : 0 ≤ a) (h' : a < 2 ^ 63) : Fits a :=
  ⟨(by decide : (-2 ^ 63 : ℤ) ≤ 0).trans h, h'⟩

/-- A range does not contain its upper end. -/
@[simp]
theorem mem_range {lo hi : ℤ} : a ∈ range lo hi ↔ lo ≤ a ∧ a < hi := by
  simp only [range, List.mem_map, List.mem_range]
  constructor
  · rintro ⟨i, hi, rfl⟩
    omega
  · rintro ⟨hlo, hhi⟩
    exact ⟨(a - lo).toNat, by omega, by omega⟩

end I64

end Mushix
