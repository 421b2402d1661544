import Mushix.Lib.BitField
import Mushix.Result

/-!
# Arithmetic on unsigned integers of any width

In code that is generic in an unsigned type, `BitVec w` stands for the type of `w` bits. As for
`usize`, a difference below 0 panics in the default build profile, and so does a shift by the
width of the type or more.

* `Uint.sub`, `Uint.shl`, `Uint.shr`: the checked operators;
* `Uint.checkedShr`, `Uint.tryFrom`: `checked_shr` and the conversion from `u64`, which may fail.
-/

namespace Mushix

namespace Uint

variable {σ β : Type} {w : ℕ}

/-- Subtraction, which panics below 0. -/
def sub (x y : BitVec w) : Method σ (BitVec w) :=
  if y ≤ x then pure (x - y) else throw (.panic "attempt to subtract with overflow")

/-- A shift to the left, by less than the width. -/
def shl (x : BitVec w) (n : ℕ) : Method σ (BitVec w) :=
  if n < w then pure (x <<< n) else throw (.panic "attempt to shift left with overflow")

/-- A shift to the right, by less than the width. -/
def shr (x : BitVec w) (n : ℕ) : Method σ (BitVec w) :=
  if n < w then pure (x >>> n) else throw (.panic "attempt to shift right with overflow")

/-- `checked_shr` returns `None` where a shift to the right would panic. -/
def checkedShr (x : BitVec w) (n : ℕ) : Option (BitVec w) := if n < w then some (x >>> n) else none

/-- `try_from` converts a `u64` to `w` bits, if it fits. -/
def tryFrom (w : ℕ) (x : BitVec 64) : Option (BitVec w) :=
  if x.toNat < 2 ^ w then some (x.setWidth w) else none

variable {x y : BitVec w} {n : ℕ} {s : σ}

theorem sub_bind (h : y ≤ x) (f : BitVec w → Method σ β) : (sub x y >>= f) s = f (x - y) s := by
  rw [sub, if_pos h]
  rfl

theorem shl_bind (h : n < w) (f : BitVec w → Method σ β) : (shl x n >>= f) s = f (x <<< n) s := by
  rw [shl, if_pos h]
  rfl

/-- A shift to the left by the width or more is a panic. -/
theorem shl_bind_of_ge (h : w ≤ n) (f : BitVec w → Method σ β) :
    (shl x n >>= f) s = .error (.panic "attempt to shift left with overflow") s := by
  rw [shl, if_neg (Nat.not_lt.2 h)]
  rfl

theorem shr_bind (h : n < w) (f : BitVec w → Method σ β) : (shr x n >>= f) s = f (x >>> n) s := by
  rw [shr, if_pos h]
  rfl

/-- A shift to the right by the width or more is a panic. -/
theorem shr_bind_of_ge (h : w ≤ n) (f : BitVec w → Method σ β) :
    (shr x n >>= f) s = .error (.panic "attempt to shift right with overflow") s := by
  rw [shr, if_neg (Nat.not_lt.2 h)]
  rfl

/-- The mask `(1 << n) - 1` is computed for every width below that of the type. -/
theorem mask_bind (h : n < w) (f : BitVec w → Method σ β) :
    (shl 1#w n >>= fun one => sub one 1#w >>= f) s = f (BitField.lowMask w n) s := by
  rw [shl_bind h, sub_bind (BitField.one_le_shiftLeft h), BitField.lowMask]

/-- Past the width of the type nothing is left of a word, which is what `unwrap_or(0)` puts in. -/
theorem getD_checkedShr : (checkedShr x n).getD 0#w = x >>> n := by
  rw [checkedShr]
  split
  case isTrue h => rfl
  case isFalse h => exact (BitVec.ushiftRight_eq_zero (Nat.not_lt.1 h)).symm

/-- A conversion of what does not fit, with 0 instead. -/
theorem getD_tryFrom (x : BitVec 64) :
    (tryFrom w x).getD 0#w = if x.toNat < 2 ^ w then x.setWidth w else 0 := by
  rw [tryFrom]
  split <;> rfl

end Uint

end Mushix
