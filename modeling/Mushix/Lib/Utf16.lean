import Mushix.Lib.Bytes
import Mushix.Lib.Utf8

/-!
# UTF-16 that is read as UTF-8

The little-endian UTF-16 form of characters, and what is left of it when the bytes are decoded as
UTF-8 and every NUL is taken out.

* `Utf16.encode`: the code units;
* `Utf16.filter_fromUtf8Lossy_eq_iff`: which characters come back.
-/

namespace Utf16

open Utf8 (weight charWeight fromUtf8Lossy replacement)

/-- NUL. -/
def nul : Char := '\x00'

/-- The code units of a character. -/
def units (c : Char) : List ℕ :=
  if c.toNat < 0x10000 then
    [c.toNat]
  else
    [0xD800 + (c.toNat - 0x10000) / 0x400, 0xDC00 + (c.toNat - 0x10000) % 0x400]

/-- The code units of characters. -/
def encode (s : List Char) : List ℕ := s.flatMap units

/-- The bytes of code units, the low one first. -/
def bytesLE (us : List ℕ) : List (BitVec 8) := us.flatMap (Bytes.toLE 2)

theorem toLE_two (u : ℕ) :
    Bytes.toLE 2 u = [BitVec.ofNat 8 u, BitVec.ofNat 8 (u / 256)] := rfl

/-- The bytes of characters, one after the other. -/
theorem bytesLE_encode (s : List Char) :
    bytesLE (encode s) = s.flatMap fun c => bytesLE (units c) := List.flatMap_assoc

/-- An ASCII character is its byte and a zero. -/
theorem bytesLE_units_of_ascii {c : Char} (h : c.toNat < 0x80) :
    bytesLE (units c) = [BitVec.ofNat 8 c.toNat, 0] := by
  have hhigh : c.toNat / 256 = 0 := by omega
  simp [units, bytesLE, toLE_two, hhigh, show c.toNat < 0x10000 by omega]

/-- The bytes of ASCII characters are decoded to these, with a NUL after each. -/
theorem fromUtf8Lossy_of_ascii {s : List Char} (h : ∀ c ∈ s, c.toNat < 0x80) (n : ℕ) :
    fromUtf8Lossy (bytesLE (encode s) ++ List.replicate n 0) =
      s.flatMap (fun c => [c, nul]) ++ List.replicate n nul := by
  have hbytes : bytesLE (encode s) = s.flatMap fun c => [BitVec.ofNat 8 c.toNat, 0] := by
    rw [bytesLE_encode]
    exact List.flatMap_congr fun c hc => bytesLE_units_of_ascii (h c hc)
  have hchar : ∀ c ∈ s, Char.ofNat (BitVec.ofNat 8 c.toNat).toNat = c := by
    intro c hc
    have hlt := h c hc
    rw [BitVec.toNat_ofNat, Nat.mod_eq_of_lt (by omega), Char.ofNat_toNat]
  -- the high bytes are zero, and so is the padding
  have hascii : ∀ b ∈ bytesLE (encode s) ++ List.replicate n 0, b.toNat < 0x80 := by
    intro b hb
    simp only [hbytes, List.mem_append, List.mem_flatMap, List.mem_cons, List.not_mem_nil,
      or_false, List.mem_replicate] at hb
    obtain ⟨c, hc, rfl | rfl⟩ | ⟨-, rfl⟩ := hb
    · have hlt := h c hc
      rw [BitVec.toNat_ofNat]
      omega
    · decide
    · decide
  rw [Utf8.fromUtf8Lossy_of_ascii hascii, hbytes, List.map_append, List.map_flatMap,
    List.map_replicate]
  refine congrArg (· ++ _) (List.flatMap_congr fun c hc => ?_)
  rw [List.map_cons, hchar c hc]
  rfl

/-- ASCII characters come back. -/
theorem filter_fromUtf8Lossy_of_ascii {s : List Char} (hnul : nul ∉ s)
    (h : ∀ c ∈ s, c.toNat < 0x80) (n : ℕ) :
    (fromUtf8Lossy (bytesLE (encode s) ++ List.replicate n 0)).filter (· ≠ nul) = s := by
  have hzeros : (List.replicate n nul).filter (· ≠ nul) = [] := by simp
  rw [fromUtf8Lossy_of_ascii h, List.filter_append, hzeros, List.append_nil]
  clear h
  induction s with
  | nil => rfl
  | cons c rest ih =>
    simp only [List.mem_cons, not_or] at hnul
    have hrest := ih hnul.2
    simp only [List.flatMap_cons, List.filter_append, hrest]
    simp [Ne.symm hnul.1]

/-! ## Weights -/

/-- The weight of the bytes of code units. -/
def weightLE (us : List ℕ) : ℤ := ((bytesLE us).map weight).sum

/-- The weight of two lists is the sum of both. -/
theorem weightLE_append (us vs : List ℕ) : weightLE (us ++ vs) = weightLE us + weightLE vs := by
  simp [weightLE, bytesLE]

/-- The weight of a text is the sum over its characters. -/
theorem weightLE_encode (s : List Char) :
    weightLE (encode s) = (s.map fun c => weightLE (units c)).sum := by
  induction s with
  | nil => rfl
  | cons c rest ih =>
    rw [List.map_cons, List.sum_cons, ← ih, ← weightLE_append]
    rfl

theorem weightLE_singleton (u : ℕ) :
    weightLE [u] = weight (BitVec.ofNat 8 u) + weight (BitVec.ofNat 8 (u / 256)) := by
  simp [weightLE, bytesLE, toLE_two]

theorem weightLE_singleton_le (u : ℕ) : weightLE [u] ≤ 4 := by
  have hlow := Utf8.weight_le_two (BitVec.ofNat 8 u)
  have hhigh := Utf8.weight_le_two (BitVec.ofNat 8 (u / 256))
  rw [weightLE_singleton]
  omega

/-- The high byte of a code unit below 0x800 is ASCII. -/
theorem weightLE_singleton_of_lt {u : ℕ} (h : u < 0x800) : weightLE [u] ≤ 2 := by
  have hlow := Utf8.weight_le_two (BitVec.ofNat 8 u)
  have hhigh : weight (BitVec.ofNat 8 (u / 256)) = 0 := by
    rw [weight, BitVec.toNat_ofNat, if_pos (by omega)]
  rw [weightLE_singleton]
  omega

/-- The high byte of a surrogate is the first of two bytes. -/
theorem weightLE_singleton_of_surrogate {u : ℕ} (h : 0xD800 ≤ u) (h' : u < 0xE000) :
    weightLE [u] ≤ 3 := by
  have hlow := Utf8.weight_le_two (BitVec.ofNat 8 u)
  have hhigh : weight (BitVec.ofNat 8 (u / 256)) = 1 := by
    rw [weight, BitVec.toNat_ofNat, if_neg (by omega), if_neg (by omega), if_pos (by omega)]
  rw [weightLE_singleton]
  omega

/-- The code units of an ASCII character weigh as much as it. -/
theorem weightLE_units_of_lt {c : Char} (h : c.toNat < 0x80) :
    weightLE (units c) = charWeight c := by
  have hrep : c ≠ replacement := by
    rintro rfl
    exact absurd h (by decide)
  have hunits : units c = [c.toNat] := if_pos (by omega)
  have hlow : weight (BitVec.ofNat 8 c.toNat) = 0 := by
    rw [weight, BitVec.toNat_ofNat, if_pos (by omega)]
  have hhigh : weight (BitVec.ofNat 8 (c.toNat / 256)) = 0 := by
    rw [weight, BitVec.toNat_ofNat, if_pos (by omega)]
  simp [hunits, weightLE_singleton, hlow, hhigh, charWeight, hrep, h]

/-- The code units of every other character weigh less than it. -/
theorem weightLE_units_lt {c : Char} (h : 0x80 ≤ c.toNat) :
    weightLE (units c) < charWeight c := by
  by_cases hrep : c = replacement
  · subst hrep
    decide
  -- one code unit, or two surrogates
  by_cases hbmp : c.toNat < 0x10000
  · have hunits : units c = [c.toNat] := if_pos hbmp
    by_cases htwo : c.toNat < 0x800
    · have hweight : charWeight c = 3 := by simp [charWeight, hrep, Nat.not_lt.2 h, htwo]
      have hle := weightLE_singleton_of_lt htwo
      rw [hunits, hweight]
      omega
    · have hweight : charWeight c = 5 := by
        simp [charWeight, hrep, Nat.not_lt.2 h, htwo, hbmp]
      have hle := weightLE_singleton_le c.toNat
      rw [hunits, hweight]
      omega
  · have hlt : c.toNat < 0x110000 := by
      obtain hvalid | hvalid := c.valid
      · exact Nat.lt_trans hvalid (by decide)
      · exact hvalid.2
    have hunits : units c = [0xD800 + (c.toNat - 0x10000) / 0x400] ++
        [0xDC00 + (c.toNat - 0x10000) % 0x400] := if_neg hbmp
    have hweight : charWeight c = 7 := by
      simp [charWeight, hrep, hbmp, Nat.not_lt.2 h, show ¬c.toNat < 0x800 by omega]
    have hfirst := weightLE_singleton_of_surrogate (u := 0xD800 + (c.toNat - 0x10000) / 0x400)
      (by omega) (by omega)
    have hsecond := weightLE_singleton_of_surrogate (u := 0xDC00 + (c.toNat - 0x10000) % 0x400)
      (by omega) (by omega)
    rw [hunits, weightLE_append, hweight]
    omega

/-! ## Which characters come back -/

/-- A NUL has no weight. -/
theorem sum_charWeight_filter (s : List Char) :
    ((s.filter (· ≠ nul)).map charWeight).sum = (s.map charWeight).sum := by
  induction s with
  | nil => rfl
  | cons c rest ih =>
    by_cases hc : c = nul
    · have hzero : charWeight nul = 0 := by decide
      simpa [hc, hzero] using ih
    · simpa [hc] using ih

/-- The characters come back exactly when all of them are ASCII. -/
theorem filter_fromUtf8Lossy_eq_iff {s : List Char} (hnul : nul ∉ s) (n : ℕ) :
    (fromUtf8Lossy (bytesLE (encode s) ++ List.replicate n 0)).filter (· ≠ nul) = s ↔
      ∀ c ∈ s, c.toNat < 0x80 := by
  constructor
  · intro h
    by_contra hascii
    simp only [not_forall, Nat.not_lt] at hascii
    obtain ⟨c, hc, hlarge⟩ := hascii
    -- the characters that come back weigh no more than the bytes, so they weigh less than `s`
    have hzeros : ((List.replicate n 0).map weight).sum = 0 := by
      rw [List.map_replicate, List.sum_replicate, show weight 0 = 0 by decide, nsmul_zero]
    have hbytes : ((bytesLE (encode s) ++ List.replicate n 0).map weight).sum =
        (s.map fun c => weightLE (units c)).sum := by
      rw [List.map_append, List.sum_append, hzeros, add_zero, ← weightLE_encode, weightLE]
    have hle : (s.map charWeight).sum ≤ (s.map fun c => weightLE (units c)).sum := by
      calc (s.map charWeight).sum
          = ((fromUtf8Lossy (bytesLE (encode s) ++ List.replicate n 0)).map charWeight).sum := by
            rw [← sum_charWeight_filter (fromUtf8Lossy _), h]
        _ ≤ _ := Utf8.sum_charWeight_fromUtf8Lossy_le _
        _ = _ := hbytes
    have hlt : (s.map fun c => weightLE (units c)).sum < (s.map charWeight).sum := by
      refine List.sum_lt_sum _ _ (fun d hd => ?_) ⟨c, hc, weightLE_units_lt hlarge⟩
      rcases Nat.lt_or_ge d.toNat 0x80 with hd | hd
      · exact le_of_eq (weightLE_units_of_lt hd)
      · exact le_of_lt (weightLE_units_lt hd)
    exact absurd hle (not_le.2 hlt)
  · intro h
    exact filter_fromUtf8Lossy_of_ascii hnul h n

end Utf16
