import Mathlib.Data.BitVec
import Mathlib.Data.Nat.Bitwise
import Mathlib.Tactic.NormNum

/-!
# Masks and fields of machine words

Facts about `BitVec w` for programs that select fields with masks of the form
`(1 << k) - 1`: which bits such a mask has, and what is left of a word under the mask, under
its complement and after a field was replaced.

`replace` puts a value into a field; fields that share no bit do not disturb each other
(`shiftRight_replace_of_disjoint`) and can be replaced in either order (`replace_comm`).

`toNat_and_not_lowMask` and `toNat_or_of_aligned` turn the two usual pointer idioms, clearing
low tag bits and setting them, into arithmetic.
-/

namespace BitField

variable {w : ℕ}

/-- The word whose `k` low bits are set. -/
def lowMask (w k : ℕ) : BitVec w := (1#w <<< k) - 1#w

theorem toNat_one_shiftLeft {k : ℕ} (hk : k < w) : (1#w <<< k).toNat = 2 ^ k := by
  have hpow : (2 : ℕ) ^ k < 2 ^ w := Nat.pow_lt_pow_right (by norm_num) hk
  have hone : (1#w).toNat = 1 := by
    rw [BitVec.toNat_ofNat, Nat.mod_eq_of_lt (Nat.one_lt_two_pow (by omega))]
  rw [BitVec.toNat_shiftLeft, hone, Nat.shiftLeft_eq, one_mul, Nat.mod_eq_of_lt hpow]

theorem one_le_shiftLeft {k : ℕ} (hk : k < w) : 1#w ≤ 1#w <<< k := by
  have hone := toNat_one_shiftLeft (w := w) (k := 0) (by omega)
  rw [BitVec.shiftLeft_zero] at hone
  rw [BitVec.le_def, hone, toNat_one_shiftLeft hk]
  exact Nat.pow_le_pow_right (by norm_num) (Nat.zero_le k)

theorem toNat_lowMask {k : ℕ} (hk : k < w) : (lowMask w k).toNat = 2 ^ k - 1 := by
  have hone := toNat_one_shiftLeft (w := w) (k := 0) (by omega)
  rw [BitVec.shiftLeft_zero, pow_zero] at hone
  rw [lowMask, BitVec.toNat_sub_of_le (one_le_shiftLeft hk), toNat_one_shiftLeft hk, hone]

/-- The mask of `k` bits has the bits below `k`. -/
@[simp]
theorem getLsbD_lowMask {k : ℕ} (hk : k < w) (i : ℕ) :
    (lowMask w k).getLsbD i = decide (i < k) := by
  rw [BitVec.getLsbD, toNat_lowMask hk, Nat.testBit_two_pow_sub_one]

/-- A word under a low mask is its remainder. -/
theorem toNat_and_lowMask {k : ℕ} (hk : k < w) (x : BitVec w) :
    (x &&& lowMask w k).toNat = x.toNat % 2 ^ k := by
  rw [BitVec.toNat_and, toNat_lowMask hk, Nat.and_two_pow_sub_one_eq_mod]

/-- A word fits under a low mask exactly when it is below the mask's size. -/
theorem lowMask_and_eq_self_iff {k : ℕ} (hk : k < w) {x : BitVec w} :
    lowMask w k &&& x = x ↔ x.toNat < 2 ^ k := by
  rw [← BitVec.toNat_inj, BitVec.and_comm, toNat_and_lowMask hk, Nat.mod_eq_iff_lt (by positivity)]

/-- A word has no bit under a low mask exactly when it is a multiple of the mask's size. -/
theorem and_lowMask_eq_zero_iff {k : ℕ} (hk : k < w) (x : BitVec w) :
    x &&& lowMask w k = 0 ↔ x.toNat % 2 ^ k = 0 := by
  rw [← toNat_and_lowMask hk, ← BitVec.toNat_inj]
  simp

/-- Clearing the low bits rounds down. -/
theorem toNat_and_not_lowMask {k : ℕ} (hk : k < w) (x : BitVec w) :
    (x &&& ~~~lowMask w k).toNat = x.toNat - x.toNat % 2 ^ k := by
  have hsplit : (x &&& ~~~lowMask w k).toNat = 2 ^ k * (x.toNat / 2 ^ k) := by
    apply Nat.eq_of_testBit_eq
    intro i
    rw [BitVec.toNat_and, Nat.testBit_and, BitVec.testBit_toNat, BitVec.testBit_toNat,
      BitVec.getLsbD_not, getLsbD_lowMask hk, Nat.testBit_two_pow_mul, Nat.testBit_div_two_pow,
      BitVec.testBit_toNat]
    rcases Nat.lt_or_ge i k with hik | hik
    · simp [hik]
    · rcases Nat.lt_or_ge i w with hiw | hiw
      · simp [hik, hiw, Nat.not_lt.2 hik]
      · simp [hik, BitVec.getLsbD_of_ge x i hiw]
  have := Nat.div_add_mod x.toNat (2 ^ k)
  omega

/-- Setting low bits in a word that has none of them adds them. -/
theorem toNat_or_of_aligned {k : ℕ} {x y : BitVec w} (hx : x.toNat % 2 ^ k = 0)
    (hy : y.toNat < 2 ^ k) : (x ||| y).toNat = x.toNat + y.toNat := by
  have hdiv := Nat.div_add_mod x.toNat (2 ^ k)
  rw [hx, Nat.add_zero] at hdiv
  rw [BitVec.toNat_or, ← hdiv, Nat.two_pow_add_eq_or_of_lt hy]

/-- The field of `m` bits at bit `k` of a number is 0 exactly when none of its bits is set. -/
theorem div_mod_two_pow_eq_zero_iff {n k m : ℕ} :
    n / 2 ^ k % 2 ^ m = 0 ↔ ∀ i < m, n.testBit (k + i) = false := by
  constructor
  · intro h i hi
    have hbit : (n / 2 ^ k % 2 ^ m).testBit i = false := by rw [h, Nat.zero_testBit]
    rwa [Nat.testBit_mod_two_pow, Nat.testBit_div_two_pow, decide_eq_true hi, Bool.true_and,
      Nat.add_comm] at hbit
  · intro h
    apply Nat.eq_of_testBit_eq
    intro i
    rw [Nat.zero_testBit, Nat.testBit_mod_two_pow, Nat.testBit_div_two_pow, Nat.add_comm]
    by_cases hi : i < m
    · rw [h i hi, Bool.and_false]
    · rw [decide_eq_false hi, Bool.false_and]

section MaskedOr

variable {x y mask : BitVec w}

/-- Bits set under a mask leave the bits outside it as they were. -/
theorem or_and_not_mask (hx : x &&& mask = 0) : (x ||| (y &&& mask)) &&& ~~~mask = x := by
  ext i hi
  have hbit : (x &&& mask)[i] = (0 : BitVec w)[i] := by rw [hx]
  simp only [BitVec.getElem_and, BitVec.getElem_or, BitVec.getElem_not] at hbit ⊢
  cases hm : mask[i] <;> simp_all

/-- Bits set under a mask are found there. -/
theorem or_and_mask (hx : x &&& mask = 0) : (x ||| (y &&& mask)) &&& mask = y &&& mask := by
  ext i hi
  have hbit : (x &&& mask)[i] = (0 : BitVec w)[i] := by rw [hx]
  simp only [BitVec.getElem_and, BitVec.getElem_or] at hbit ⊢
  cases hm : mask[i] <;> simp_all

end MaskedOr

/-! ## Stores under a mask -/

/-- The word `x` after a store of `y` that only reaches the bits of the mask. -/
def store (x mask y : BitVec w) : BitVec w := (x &&& ~~~mask) ||| (y &&& mask)

/-- A store takes the bits of the mask from the new value. -/
theorem getLsbD_store (x mask y : BitVec w) (i : ℕ) :
    (store x mask y).getLsbD i = if mask.getLsbD i then y.getLsbD i else x.getLsbD i := by
  rcases Nat.lt_or_ge i w with hi | hi
  · rw [store, BitVec.getLsbD_or, BitVec.getLsbD_and, BitVec.getLsbD_and, BitVec.getLsbD_not]
    cases mask.getLsbD i <;> simp [hi]
  · simp [BitVec.getLsbD_of_ge _ _ hi]

/-- A store depends on the bits under the mask only. -/
theorem store_congr {x mask y z : BitVec w} (h : y &&& mask = z &&& mask) :
    store x mask y = store x mask z := by
  rw [store, store, h]

/-- Two stores under complementary parts of a mask are one store. -/
theorem store_store_compl (x mask part y : BitVec w) :
    store (store x (mask &&& part) y) (mask &&& ~~~part) y = store x mask y := by
  apply BitVec.eq_of_getLsbD_eq
  intro i hi
  simp only [getLsbD_store, BitVec.getLsbD_and, BitVec.getLsbD_not, hi, decide_true,
    Bool.true_and]
  cases mask.getLsbD i <;> cases part.getLsbD i <;> rfl

/-- Storing the old word again undoes a store. -/
theorem store_store_self (x mask y : BitVec w) : store (store x mask y) mask x = x := by
  apply BitVec.eq_of_getLsbD_eq
  intro i _
  rw [getLsbD_store, getLsbD_store]
  cases mask.getLsbD i <;> rfl

/-- The bits of a field: the word shifted down, under a low mask. -/
theorem getLsbD_shiftRight_and_lowMask {k : ℕ} (hk : k < w) (x : BitVec w) (shift i : ℕ) :
    ((x >>> shift) &&& lowMask w k).getLsbD i = (decide (i < k) && x.getLsbD (shift + i)) := by
  rw [BitVec.getLsbD_and, BitVec.getLsbD_ushiftRight, getLsbD_lowMask hk, Bool.and_comm]

/-- The bits of a word whose field of `k` bits at bit `shift` was replaced by `y`. -/
theorem getLsbD_replace {k shift : ℕ} (hk : k < w) {x y : BitVec w}
    (hy : lowMask w k &&& y = y) {i : ℕ} (hi : i < w) :
    ((y <<< shift) ||| (x &&& ~~~(lowMask w k <<< shift))).getLsbD i =
      if shift ≤ i ∧ i < shift + k then y.getLsbD (i - shift) else x.getLsbD i := by
  have hhigh : ∀ j, k ≤ j → y.getLsbD j = false := by
    intro j hj
    rw [← hy, BitVec.getLsbD_and, getLsbD_lowMask hk]
    simp [Nat.not_lt.2 hj]
  rw [BitVec.getLsbD_or, BitVec.getLsbD_and, BitVec.getLsbD_not, BitVec.getLsbD_shiftLeft,
    BitVec.getLsbD_shiftLeft, getLsbD_lowMask hk]
  rcases Nat.lt_or_ge i shift with hlo | hlo
  · simp [hi, hlo, Nat.not_le.2 hlo]
  · rcases Nat.lt_or_ge (i - shift) k with hin | hin
    · have hlt : i < shift + k := by omega
      simp [hi, hlo, hin, hlt, Nat.not_lt.2 hlo]
    · have hlt : ¬i < shift + k := by omega
      simp [hi, hlt, Nat.not_lt.2 hlo, Nat.not_lt.2 hin, hhigh _ hin]

/-- A field that was replaced holds its new value. -/
theorem shiftRight_replace {k shift : ℕ} (hk : k < w) (hend : shift + k ≤ w) {x y : BitVec w}
    (hy : lowMask w k &&& y = y) :
    (((y <<< shift) ||| (x &&& ~~~(lowMask w k <<< shift))) >>> shift) &&& lowMask w k = y := by
  apply BitVec.eq_of_getLsbD_eq
  intro i hi
  rw [getLsbD_shiftRight_and_lowMask hk]
  by_cases hlt : i < k
  · rw [getLsbD_replace hk hy (by omega), if_pos (by omega), decide_eq_true hlt, Bool.true_and,
      Nat.add_sub_cancel_left]
  -- above the width the field reads as 0, and so does a value that fits
  · rw [← hy, BitVec.getLsbD_and, getLsbD_lowMask hk, decide_eq_false hlt, Bool.false_and,
      Bool.false_and]

/-- The word `x` with its field of `k` bits at bit `shift` replaced by `y`. -/
def replace (x : BitVec w) (shift k : ℕ) (y : BitVec w) : BitVec w :=
  (y <<< shift) ||| (x &&& ~~~(lowMask w k <<< shift))

section Disjoint

variable {k shift k' shift' : ℕ} {x y y' : BitVec w}

/-- A field that shares no bit with a replaced one is left alone. -/
theorem shiftRight_replace_of_disjoint (hk : k < w) (hk' : k' < w) (hend : shift' + k' ≤ w)
    (hy : lowMask w k &&& y = y)
    (hdisj : ∀ i, ¬((shift ≤ i ∧ i < shift + k) ∧ shift' ≤ i ∧ i < shift' + k')) :
    (replace x shift k y >>> shift') &&& lowMask w k' = (x >>> shift') &&& lowMask w k' := by
  apply BitVec.eq_of_getLsbD_eq
  intro i _
  rw [getLsbD_shiftRight_and_lowMask hk', getLsbD_shiftRight_and_lowMask hk']
  by_cases hi : i < k'
  · have hout : ¬(shift ≤ shift' + i ∧ shift' + i < shift + k) :=
      fun hin => hdisj (shift' + i) ⟨hin, by omega, by omega⟩
    rw [replace, getLsbD_replace hk hy (by omega), if_neg hout]
  · rw [decide_eq_false hi, Bool.false_and, Bool.false_and]

/-- Two fields that share no bit can be replaced in either order. -/
theorem replace_comm (hk : k < w) (hk' : k' < w) (hy : lowMask w k &&& y = y)
    (hy' : lowMask w k' &&& y' = y')
    (hdisj : ∀ i, ¬((shift ≤ i ∧ i < shift + k) ∧ shift' ≤ i ∧ i < shift' + k')) :
    replace (replace x shift k y) shift' k' y' = replace (replace x shift' k' y') shift k y := by
  apply BitVec.eq_of_getLsbD_eq
  intro i hi
  rw [replace, getLsbD_replace hk' hy' hi, replace, getLsbD_replace hk hy hi, replace,
    getLsbD_replace hk hy hi, replace, getLsbD_replace hk' hy' hi]
  by_cases hin : shift ≤ i ∧ i < shift + k
  · rw [if_neg fun hin' => hdisj i ⟨hin, hin'⟩, if_pos hin, if_pos hin]
  · rw [if_neg hin, if_neg hin]

end Disjoint

end BitField
