import Mushix.Lib.BitField

/-!
# Bits that are cleared by writing 1

Status registers of hardware have bits that software can only clear: a store clears those of them
that are 1 in the stored word and leaves the others. `writeToClear x mask y` is what a store of `y`
makes of a register with the value `x` whose bits under `mask` are such bits, and whose other bits
are read only.

* `writeToClear_of_and_eq_zero`, `writeToClear_self`: stores that clear nothing or everything;
* `writeToClear_and_not_eq_iff`: when writing back a word without some of its bits clears just them.
-/

namespace BitField

variable {w : ℕ} {x y mask part : BitVec w}

/-- The word `x` after a store of `y`, where storing 1 clears a bit of the mask. -/
def writeToClear (x mask y : BitVec w) : BitVec w := x &&& ~~~(y &&& mask)

/-- A bit is cleared by a 1 that the mask lets through. -/
theorem getElem_writeToClear (x mask y : BitVec w) {i : ℕ} (hi : i < w) :
    (writeToClear x mask y)[i] = (x[i] && !(y[i] && mask[i])) := by
  simp [writeToClear]

/-- A word has no bit under a mask exactly when it is 0 wherever the mask is 1. -/
theorem and_eq_zero_iff_getElem :
    x &&& mask = 0 ↔ ∀ (i : ℕ) (hi : i < w), mask[i] = true → x[i] = false := by
  constructor
  · intro h i hi hmask
    have hbit : (x &&& mask)[i] = (0 : BitVec w)[i] := by rw [h]
    simpa [hmask] using hbit
  · intro h
    ext i hi
    cases hmask : mask[i]
    · simp [hmask]
    · simp [hmask, h i hi hmask]

/-- The bits of a mask are cleared and the others kept exactly when the result is the word without
the mask. -/
theorem eq_and_not_iff : y = x &&& ~~~mask ↔ y &&& mask = 0 ∧ y &&& ~~~mask = x &&& ~~~mask := by
  constructor
  · rintro rfl
    constructor
    · ext i hi
      cases hmask : mask[i] <;> simp [hmask]
    · ext i hi
      simp
  · rintro ⟨hclear, hkeep⟩
    ext i hi
    have hbit := and_eq_zero_iff_getElem.1 hclear i hi
    have hbit' : (y &&& ~~~mask)[i] = (x &&& ~~~mask)[i] := by rw [hkeep]
    rw [BitVec.getElem_and, BitVec.getElem_and, BitVec.getElem_not] at hbit'
    rw [BitVec.getElem_and, BitVec.getElem_not]
    cases hmask : mask[i] <;> simp_all

/-- A store that has no 1 under the mask clears nothing. -/
@[simp]
theorem writeToClear_of_and_eq_zero (x : BitVec w) (h : y &&& mask = 0) :
    writeToClear x mask y = x := by
  simp [writeToClear, h]

/-- Writing a word back clears all its bits under the mask. -/
theorem writeToClear_self (x mask : BitVec w) : writeToClear x mask x = x &&& ~~~mask := by
  ext i hi
  rw [getElem_writeToClear, BitVec.getElem_and, BitVec.getElem_not]
  cases x[i] <;> simp

/-- A read-modify-write that leaves out the bits it is to clear clears them, and only them, exactly
when none of the bits that can be cleared is set. -/
theorem writeToClear_and_not_eq_iff (hpart : part &&& mask = part) :
    writeToClear x mask (x &&& ~~~part) = x &&& ~~~part ↔ x &&& mask = 0 := by
  constructor
  · intro h
    rw [and_eq_zero_iff_getElem]
    intro i hi hmask
    have hbit : (writeToClear x mask (x &&& ~~~part))[i] = (x &&& ~~~part)[i] := by rw [h]
    rw [getElem_writeToClear, BitVec.getElem_and, BitVec.getElem_not, hmask] at hbit
    -- a bit of the part is not cleared, and a bit outside of it is
    cases hx : x[i] <;> cases hp : part[i] <;> simp_all
  · intro h
    have hsame : x &&& ~~~part = x := by
      ext i hi
      have hbit := and_eq_zero_iff_getElem.1 h i hi
      have hsub : (part &&& mask)[i] = part[i] := by rw [hpart]
      rw [BitVec.getElem_and] at hsub
      rw [BitVec.getElem_and, BitVec.getElem_not]
      cases hp : part[i] <;> simp_all
    rw [hsame, writeToClear_of_and_eq_zero x h]

end BitField
