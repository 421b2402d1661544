import Mushix.Lib.BitField
import Mushix.Uint

/-!
# Fields of integers

`extract_bits` (`bits.rs`): `extractBits` is its result, `Checked.extractBits` the function with
the checks of the default build profile.

`extract_bits` is right for fields of less than 64 bits and for shifts below `2 ^ 32`. A mask of
64 bits is never built, and the shift is converted to `u32` before it is compared with the width
of `u64`; `Extractable` says for which arguments neither matters.
-/

namespace Mushix

/-- `extract_bits` for an unsigned integer of `w` bits, which is converted to `u64` and back. -/
def extractBits {w : ℕ} (value : BitVec w) (shift width : ℕ) : BitVec w :=
  let mask := (1#64 <<< min 63 width) - 1#64
  let value := value.setWidth 64
  -- `shift as u32`, and `checked_shr` returns `None` from 64 on
  let shift := shift % 2 ^ 32
  let value := (if shift < 64 then value >>> shift else 0) &&& mask
  if value.toNat < 2 ^ w then value.setWidth w else 0

/-- `extract_bits`, operation by operation. -/
def Checked.extractBits {σ : Type} {w : ℕ} (value : BitVec w) (shift width : ℕ) :
    Method σ (BitVec w) := do
  let mask ← Uint.sub (← Uint.shl 1#64 (min 63 width)) 1#64
  let value := value.setWidth 64
  let value := (Uint.checkedShr value (shift % 2 ^ 32)).getD 0#64 &&& mask
  return (Uint.tryFrom w value).getD 0#w

variable {σ : Type} {w : ℕ} (value : BitVec w) (shift width : ℕ)

/-- `extract_bits` with the mask and the shift as operations on fields. -/
theorem extractBits_eq : extractBits value shift width =
    (Uint.tryFrom w (value.setWidth 64 >>> (shift % 2 ^ 32) &&&
      BitField.lowMask 64 (min 63 width))).getD 0#w := by
  have hshift : (if shift % 2 ^ 32 < 64 then value.setWidth 64 >>> (shift % 2 ^ 32) else 0) =
      value.setWidth 64 >>> (shift % 2 ^ 32) := by
    rw [← Uint.getD_checkedShr, Uint.checkedShr]
    split <;> rfl
  rw [Uint.getD_tryFrom, extractBits, hshift, BitField.lowMask]

/-- `extract_bits` never panics. -/
theorem Checked.run_extractBits (s : σ) :
    Checked.extractBits value shift width s = .ok (Mushix.extractBits value shift width) s := by
  have hmask : min 63 width < 64 := by omega
  rw [Checked.extractBits, Uint.mask_bind hmask, Method.run_pure, Uint.getD_checkedShr,
    extractBits_eq]

/-- `extract_bits` returns a field of at most 63 bits, at a shift of 32 bits. -/
theorem toNat_extractBits (hw : w ≤ 64) : (extractBits value shift width).toNat =
    value.toNat / 2 ^ (shift % 2 ^ 32) % 2 ^ min 63 width := by
  have hmask : min 63 width < 64 := by omega
  have hfield : (value.setWidth 64 >>> (shift % 2 ^ 32) &&&
      BitField.lowMask 64 (min 63 width)).toNat =
        value.toNat / 2 ^ (shift % 2 ^ 32) % 2 ^ min 63 width := by
    rw [BitField.toNat_and_lowMask hmask, BitVec.toNat_ushiftRight,
      BitVec.toNat_setWidth_of_le hw, Nat.shiftRight_eq_div_pow]
  -- the field is not above the value, so the conversion back succeeds
  have hlt : value.toNat / 2 ^ (shift % 2 ^ 32) % 2 ^ min 63 width < 2 ^ w :=
    ((Nat.mod_le _ _).trans (Nat.div_le_self _ _)).trans_lt value.isLt
  rw [extractBits_eq, Uint.getD_tryFrom, hfield, if_pos hlt, BitVec.toNat_setWidth, hfield,
    Nat.mod_eq_of_lt hlt]

/-- The arguments for which `extract_bits` is right. -/
structure Extractable {w : ℕ} (value : BitVec w) (shift width : ℕ) : Prop where
  /-- The field has less than 64 bits, or its bit 63 is 0. -/
  mask : shift < 2 ^ 32 → width < 64 ∨ 0 < shift ∨ value.toNat < 2 ^ 63
  /-- The field at the truncated shift is empty, as the one at the shift is. -/
  truncation : 2 ^ 32 ≤ shift → ∀ i < min 63 width, value.getLsbD (shift % 2 ^ 32 + i) = false

/-- A mask of 63 bits is enough where the bit 63 of the shifted value is 0. -/
theorem mod_clamped_eq_iff {n width : ℕ} (hn : n < 2 ^ 64) :
    n % 2 ^ min 63 width = n % 2 ^ width ↔ width < 64 ∨ n < 2 ^ 63 := by
  rcases Nat.lt_or_ge width 64 with hlt | hge
  · have hmin : min 63 width = width := by omega
    simp [hmin, hlt]
  · have hmin : min 63 width = 63 := by omega
    have hfull : n % 2 ^ width = n :=
      Nat.mod_eq_of_lt (hn.trans_le (Nat.pow_le_pow_right (by decide) hge))
    rw [hmin, hfull, Nat.mod_eq_iff_lt (by decide)]
    simp [Nat.not_lt.2 hge]

/-- Only an unshifted value has the bit 63. -/
theorem div_two_pow_lt_iff {n shift : ℕ} (hn : n < 2 ^ 64) :
    n / 2 ^ shift < 2 ^ 63 ↔ 0 < shift ∨ n < 2 ^ 63 := by
  cases shift with
  | zero => simp
  | succ shift =>
    have hhalf : n / 2 ^ (shift + 1) ≤ n / 2 :=
      Nat.div_le_div_left (Nat.le_self_pow (by omega) 2) (by decide)
    exact iff_of_true (by omega) (.inl (Nat.succ_pos shift))

/-- `extract_bits` returns the field of `width` bits at bit `shift`, without a panic, exactly where
the mask does not lose the bit 63 and the truncated shift does not matter. -/
theorem Checked.extractBits_eq_field_iff (hw : w ≤ 64) (s : σ) :
    (∃ r, Checked.extractBits value shift width s = .ok r s ∧
      r.toNat = value.toNat / 2 ^ shift % 2 ^ width) ↔ Extractable value shift width := by
  have hvalue : value.toNat < 2 ^ 64 :=
    value.isLt.trans_le (Nat.pow_le_pow_right (by decide) hw)
  have hresult : (∃ r, Checked.extractBits value shift width s = .ok r s ∧
      r.toNat = value.toNat / 2 ^ shift % 2 ^ width) ↔
      value.toNat / 2 ^ (shift % 2 ^ 32) % 2 ^ min 63 width =
        value.toNat / 2 ^ shift % 2 ^ width := by
    rw [← toNat_extractBits value shift width hw]
    constructor
    · rintro ⟨r, hrun, hr⟩
      rw [Checked.run_extractBits] at hrun
      cases hrun
      exact hr
    · intro hr
      exact ⟨_, Checked.run_extractBits value shift width s, hr⟩
  rw [hresult]
  rcases Nat.lt_or_ge shift (2 ^ 32) with hshift | hshift
  · -- the shift is not truncated
    have hle : value.toNat / 2 ^ shift < 2 ^ 64 := (Nat.div_le_self _ _).trans_lt hvalue
    rw [Nat.mod_eq_of_lt hshift, mod_clamped_eq_iff hle, div_two_pow_lt_iff hvalue]
    constructor
    · intro h
      exact ⟨fun _ => h, fun hge => absurd hshift (Nat.not_lt.2 hge)⟩
    · intro h
      exact h.mask hshift
  · -- the field at the shift is empty
    have hzero : value.toNat / 2 ^ shift = 0 :=
      Nat.div_eq_of_lt (hvalue.trans_le (Nat.pow_le_pow_right (by decide) (by omega)))
    rw [hzero, Nat.zero_mod, BitField.div_mod_two_pow_eq_zero_iff]
    constructor
    · intro h
      exact ⟨fun hlt => absurd hlt (Nat.not_lt.2 hshift), fun _ => h⟩
    · intro h
      exact h.truncation hshift

/-- The test with a width of 65, whose value has no bit 63. -/
theorem Checked.extractBits_eq_field_iff_u64 :
    ∃ r, Checked.extractBits 0x1234567812345678#64 0 65 () = .ok r () ∧
      r.toNat = (0x1234567812345678#64).toNat / 2 ^ 0 % 2 ^ 65 :=
  (Checked.extractBits_eq_field_iff _ 0 65 (by decide) ()).2
    ⟨fun _ => .inr (.inr (by decide)), fun h => absurd h (by decide)⟩

/-- The bit 63 of a field of 64 bits is lost. -/
theorem Checked.extractBits_bit_63 :
    Checked.extractBits 0x8000000000000000#64 0 64 () = .ok 0#64 () ∧
      (0x8000000000000000#64).toNat / 2 ^ 0 % 2 ^ 64 = 0x8000000000000000 :=
  ⟨rfl, by decide⟩

end Mushix
