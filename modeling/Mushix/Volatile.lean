import Mushix.Lib.BitField
import Mushix.Result

/-!
# Register fields

`Volatile<T>` (`volatile.rs`) wraps an integer that is read and written by volatile
accesses; a `Volatile<T>` is represented by the integer it holds. `readBits` and
`writeBits` are its field accessors. Every shift amount in the crate is below the width of
the integer, where the shift operators of `BitVec` and of Rust agree; `VolatileFields.lean` has
the accessors with any shift amount.
-/

namespace Mushix.Volatile

open BitField (lowMask)

variable {w : ℕ}

/-- `Volatile::read_bits`: the field of `width` bits at bit `shift`. -/
def readBits (value : BitVec w) (shift width : ℕ) : BitVec w :=
  let mask := (1#w <<< width) - 1#w
  (value >>> shift) &&& mask

/-- `Volatile::write_bits`: the integer with the field replaced, or `Err` when the new field
does not fit. -/
def writeBits (old : BitVec w) (shift width : ℕ) (value : BitVec w) :
    Except String (BitVec w) :=
  let mask := (1#w <<< width) - 1#w
  if mask &&& value ≠ value then
    .error "Value out of range"
  else
    let mask := mask <<< shift
    .ok ((value <<< shift) ||| (old &&& ~~~mask))

/-- Whether `write_bits` accepts a value does not depend on the integer it goes into. -/
theorem writeBits_isOk_iff (old : BitVec w) (shift width : ℕ) (value : BitVec w) :
    (writeBits old shift width value).isOk ↔ lowMask w width &&& value = value := by
  by_cases h : ((1#w <<< width) - 1#w) &&& value = value <;>
    simp [writeBits, lowMask, h, Except.isOk, Except.toBool]

/-- A value that fits is written. -/
theorem writeBits_of_fits {value : BitVec w} {width : ℕ} (h : lowMask w width &&& value = value)
    (old : BitVec w) (shift : ℕ) : writeBits old shift width value =
      .ok ((value <<< shift) ||| (old &&& ~~~(lowMask w width <<< shift))) := by
  have hmask : ((1#w <<< width) - 1#w) &&& value = value := h
  simp only [writeBits, hmask, ne_eq, not_true_eq_false, if_false, lowMask]

/-- The bits of the integer after an accepted `write_bits`. -/
theorem getLsbD_unwrap_writeBits {old value : BitVec w} {shift width : ℕ} (hw : width < w)
    (h : (writeBits old shift width value).isOk) {i : ℕ} (hi : i < w) :
    (unwrap (writeBits old shift width value) h).getLsbD i =
      if shift ≤ i ∧ i < shift + width then value.getLsbD (i - shift) else old.getLsbD i := by
  have hmask := (writeBits_isOk_iff old shift width value).1 h
  have hunwrap : unwrap (writeBits old shift width value) h =
      (value <<< shift) ||| (old &&& ~~~(lowMask w width <<< shift)) := by
    simp only [writeBits_of_fits hmask, unwrap_ok]
  rw [hunwrap, BitField.getLsbD_replace hw hmask hi]

/-- The bits `read_bits` returns. -/
theorem getLsbD_readBits {value : BitVec w} {shift width : ℕ} (hw : width < w) (i : ℕ) :
    (readBits value shift width).getLsbD i =
      (decide (i < width) && value.getLsbD (shift + i)) :=
  BitField.getLsbD_shiftRight_and_lowMask hw value shift i

/-- The number in a field. -/
theorem toNat_readBits {value : BitVec w} {shift width : ℕ} (hw : width < w) :
    (readBits value shift width).toNat = value.toNat / 2 ^ shift % 2 ^ width := by
  have hread : readBits value shift width = (value >>> shift) &&& lowMask w width := rfl
  rw [hread, BitField.toNat_and_lowMask hw, BitVec.toNat_ushiftRight, Nat.shiftRight_eq_div_pow]

/-- A field of one bit is nonzero exactly when the bit is set. -/
theorem readBits_one_ne_zero {value : BitVec w} {shift : ℕ} (hw : 1 < w) :
    (readBits value shift 1 != 0) = value.getLsbD shift := by
  cases hbit : value.getLsbD shift
  · have hzero : readBits value shift 1 = 0 := by
      refine BitVec.eq_of_getLsbD_eq fun i _ => ?_
      rw [getLsbD_readBits hw]
      rcases Nat.eq_zero_or_pos i with rfl | hpos
      · simp [hbit]
      · simp [Nat.not_lt.2 hpos]
    simp [hzero]
  · have hset : (readBits value shift 1).getLsbD 0 = true := by
      rw [getLsbD_readBits hw]
      simp [hbit]
    have hne : readBits value shift 1 ≠ 0 := by
      intro hzero
      simp [hzero] at hset
    simpa using hne

end Mushix.Volatile
