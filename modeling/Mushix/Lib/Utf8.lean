import Mathlib.Algebra.BigOperators.Group.List.Basic
import Mathlib.Algebra.Order.BigOperators.Group.List
import Mathlib.Tactic.Ring

/-!
# Lossy decoding of UTF-8

The characters that bytes are decoded to when what is not UTF-8 is replaced: the longest bytes that
begin a character without becoming one, or else a single byte, become one U+FFFD.

* `Utf8.fromUtf8Lossy`: the decoder, one byte after the other;
* `Utf8.fromUtf8Lossy_of_ascii`: the bytes of ASCII characters are decoded to these;
* `Utf8.sum_charWeight_fromUtf8Lossy_le`: the characters have no more weight than the bytes.
-/

namespace Utf8

/-- REPLACEMENT CHARACTER. -/
def replacement : Char := '\uFFFD'

/-- A byte that is not the first one of a character. -/
def IsTail (b : BitVec 8) : Prop := 0x80 ≤ b.toNat ∧ b.toNat ≤ 0xBF

instance (b : BitVec 8) : Decidable (IsTail b) := inferInstanceAs (Decidable (_ ∧ _))

/-- The second byte of a character whose encoding is the shortest one and that is neither a
surrogate nor above U+10FFFF, after the first byte. -/
structure IsSecond (a b : BitVec 8) : Prop where
  tail : IsTail b
  shortest : a = 0xE0 → 0xA0 ≤ b.toNat
  notSurrogate : a = 0xED → b.toNat ≤ 0x9F
  shortest' : a = 0xF0 → 0x90 ≤ b.toNat
  le : a = 0xF4 → b.toNat ≤ 0x8F

instance (a b : BitVec 8) : Decidable (IsSecond a b) :=
  decidable_of_iff (IsTail b ∧ (a = 0xE0 → 0xA0 ≤ b.toNat) ∧ (a = 0xED → b.toNat ≤ 0x9F) ∧
      (a = 0xF0 → 0x90 ≤ b.toNat) ∧ (a = 0xF4 → b.toNat ≤ 0x8F))
    ⟨fun ⟨h₁, h₂, h₃, h₄, h₅⟩ => ⟨h₁, h₂, h₃, h₄, h₅⟩, fun ⟨h₁, h₂, h₃, h₄, h₅⟩ =>
      ⟨h₁, h₂, h₃, h₄, h₅⟩⟩

/-- The bytes of a character of which some are still missing. -/
inductive Begun where
  | oneOfTwo (a : BitVec 8)
  | oneOfThree (a : BitVec 8)
  | twoOfThree (a b : BitVec 8)
  | oneOfFour (a : BitVec 8)
  | twoOfFour (a b : BitVec 8)
  | threeOfFour (a b c : BitVec 8)
  deriving DecidableEq, Repr

/-- The character with two bytes. -/
def two (a b : BitVec 8) : Char := Char.ofNat (a.toNat % 32 * 64 + b.toNat % 64)

/-- The character with three bytes. -/
def three (a b c : BitVec 8) : Char :=
  Char.ofNat ((a.toNat % 16 * 64 + b.toNat % 64) * 64 + c.toNat % 64)

/-- The character with four bytes. -/
def four (a b c d : BitVec 8) : Char :=
  Char.ofNat (((a.toNat % 8 * 64 + b.toNat % 64) * 64 + c.toNat % 64) * 64 + d.toNat % 64)

/-- A byte where a character begins: the characters that are decoded with it, and what has begun
after it. -/
def first (b : BitVec 8) : List Char × Option Begun :=
  if b.toNat < 0x80 then
    ([Char.ofNat b.toNat], none)
  else if 0xC2 ≤ b.toNat ∧ b.toNat ≤ 0xDF then
    ([], some (.oneOfTwo b))
  else if 0xE0 ≤ b.toNat ∧ b.toNat ≤ 0xEF then
    ([], some (.oneOfThree b))
  else if 0xF0 ≤ b.toNat ∧ b.toNat ≤ 0xF4 then
    ([], some (.oneOfFour b))
  else
    ([replacement], none)

/-- The next byte of a character that has begun, unless the byte cannot be one. -/
def Begun.more : Begun → BitVec 8 → Option (List Char × Option Begun)
  | oneOfTwo a, b => if IsTail b then some ([two a b], none) else none
  | oneOfThree a, b => if IsSecond a b then some ([], some (twoOfThree a b)) else none
  | twoOfThree a b, c => if IsTail c then some ([three a b c], none) else none
  | oneOfFour a, b => if IsSecond a b then some ([], some (twoOfFour a b)) else none
  | twoOfFour a b, c => if IsTail c then some ([], some (threeOfFour a b c)) else none
  | threeOfFour a b c, d => if IsTail d then some ([four a b c d], none) else none

/-- The next byte, before which a character may have begun. -/
def next : Option Begun → BitVec 8 → List Char × Option Begun
  | none, b => first b
  | some begun, b =>
    match begun.more b with
    | some result => result
    -- the byte does not continue the character, which is replaced, and begins anew
    | none => (replacement :: (first b).1, (first b).2)

/-- The characters from the next byte on. -/
def decodeFrom : Option Begun → List (BitVec 8) → List Char
  | none, [] => []
  | some _, [] => [replacement]
  | begun, b :: rest => (next begun b).1 ++ decodeFrom (next begun b).2 rest

/-- `String::from_utf8_lossy` replaces what is not well formed by U+FFFD. -/
def fromUtf8Lossy (bytes : List (BitVec 8)) : List Char := decodeFrom none bytes

/-- Three bytes of four are replaced by one character. -/
example : fromUtf8Lossy [0x48, 0xF0, 0x90, 0x80, 0x57, 0xC3, 0xA9, 0x80] =
    ['H', replacement, 'W', 'é', replacement] := by decide

/-- ASCII is decoded byte by byte. -/
theorem fromUtf8Lossy_of_ascii {bytes : List (BitVec 8)} (h : ∀ b ∈ bytes, b.toNat < 0x80) :
    fromUtf8Lossy bytes = bytes.map fun b => Char.ofNat b.toNat := by
  unfold fromUtf8Lossy
  induction bytes with
  | nil => rfl
  | cons b rest ih =>
    have hfirst : first b = ([Char.ofNat b.toNat], none) := if_pos (h b (by simp))
    rw [decodeFrom, next, hfirst, ih fun c hc => h c (by simp [hc])]
    rfl

/-! ## Weights -/

/-- The weight of a byte: less than nothing where no character has the byte, and more where it is
not the first one. -/
def weight (b : BitVec 8) : ℤ :=
  if b.toNat < 0x80 then 0
  else if b.toNat ≤ 0xBF then 2
  else if 0xC2 ≤ b.toNat ∧ b.toNat ≤ 0xF4 then 1
  else -1

/-- The weight of a character: what its bytes weigh, but U+FFFD weighs what a byte that it may
replace weighs at least. -/
def charWeight (c : Char) : ℤ :=
  if c = replacement then -1
  else if c.toNat < 0x80 then 0
  else if c.toNat < 0x800 then 3
  else if c.toNat < 0x10000 then 5
  else 7

/-- The weight of the bytes of a character that has begun. -/
def Begun.weight : Begun → ℤ
  | oneOfTwo _ | oneOfThree _ | oneOfFour _ => 1
  | twoOfThree _ _ | twoOfFour _ _ => 3
  | threeOfFour _ _ _ => 5

/-- The weight of what has begun. -/
def begunWeight : Option Begun → ℤ
  | none => 0
  | some begun => begun.weight

/-- The weight of a result. -/
def resultWeight (result : List Char × Option Begun) : ℤ :=
  (result.1.map charWeight).sum + begunWeight result.2

theorem neg_one_le_weight (b : BitVec 8) : -1 ≤ weight b := by
  unfold weight
  split_ifs <;> decide

theorem weight_le_two (b : BitVec 8) : weight b ≤ 2 := by
  unfold weight
  split_ifs <;> decide

/-- A sequence that has begun weighs at least 1. -/
theorem Begun.one_le_weight (begun : Begun) : 1 ≤ begun.weight := by
  cases begun <;> simp [Begun.weight]

theorem IsTail.weight_eq {b : BitVec 8} (h : IsTail b) : weight b = 2 := by
  rw [weight, if_neg (Nat.not_lt.2 h.1), if_pos h.2]

theorem charWeight_replacement : charWeight replacement = -1 := if_pos rfl

/-- A character of at most two bytes weighs at most 3. -/
theorem charWeight_le_of_lt {c : Char} (h : c.toNat < 0x800) : charWeight c ≤ 3 := by
  unfold charWeight
  split_ifs <;> simp

/-- A character of at most three bytes weighs at most 5. -/
theorem charWeight_le_of_lt' {c : Char} (h : c.toNat < 0x10000) : charWeight c ≤ 5 := by
  unfold charWeight
  split_ifs <;> simp

theorem charWeight_le (c : Char) : charWeight c ≤ 7 := by
  unfold charWeight
  split_ifs <;> simp

theorem toNat_charOfNat_le (n : ℕ) : (Char.ofNat n).toNat ≤ n := by
  by_cases hn : n.isValidChar
  · rw [Char.ofNat, dif_pos hn]
    exact Nat.le_refl n
  · rw [Char.ofNat, dif_neg hn]
    exact Nat.zero_le n

/-- A byte where a character begins adds no more than its weight. -/
theorem resultWeight_first_le (b : BitVec 8) : resultWeight (first b) ≤ weight b := by
  have hneg := neg_one_le_weight b
  unfold first
  split_ifs with hascii htwo hthree hfour
  · have hchar : charWeight (Char.ofNat b.toNat) ≤ 0 := by
      have hle := toNat_charOfNat_le b.toNat
      unfold charWeight
      rw [if_pos (show (Char.ofNat b.toNat).toNat < 0x80 by omega)]
      split_ifs <;> simp
    simpa [resultWeight, begunWeight, weight, hascii] using hchar
  · simp [resultWeight, begunWeight, Begun.weight, weight]
    omega
  · simp [resultWeight, begunWeight, Begun.weight, weight]
    omega
  · simp [resultWeight, begunWeight, Begun.weight, weight]
    omega
  · simpa [resultWeight, begunWeight, charWeight_replacement] using hneg

/-- The next byte of a character that has begun adds no more than its weight. -/
theorem resultWeight_more_le {begun : Begun} {b : BitVec 8} {result : List Char × Option Begun}
    (h : begun.more b = some result) : resultWeight result ≤ begun.weight + weight b := by
  cases begun with
  | oneOfTwo a =>
    obtain ⟨htail, hresult⟩ := Option.ite_none_right_eq_some.1 h
    -- two bytes end a character that is below `0x800`
    have hlt : (two a b).toNat < 0x800 :=
      Nat.lt_of_le_of_lt (toNat_charOfNat_le _) (by omega)
    have hle := charWeight_le_of_lt hlt
    rw [htail.weight_eq, ← Option.some.inj hresult]
    simpa [resultWeight, begunWeight, Begun.weight] using hle
  | oneOfThree a =>
    obtain ⟨hsecond, hresult⟩ := Option.ite_none_right_eq_some.1 h
    rw [hsecond.tail.weight_eq, ← Option.some.inj hresult]
    simp [resultWeight, begunWeight, Begun.weight]
  | twoOfThree a a' =>
    obtain ⟨htail, hresult⟩ := Option.ite_none_right_eq_some.1 h
    -- three bytes end one below `0x10000`
    have hlt : (three a a' b).toNat < 0x10000 :=
      Nat.lt_of_le_of_lt (toNat_charOfNat_le _) (by omega)
    have hle := charWeight_le_of_lt' hlt
    rw [htail.weight_eq, ← Option.some.inj hresult]
    simpa [resultWeight, begunWeight, Begun.weight] using hle
  | oneOfFour a =>
    obtain ⟨hsecond, hresult⟩ := Option.ite_none_right_eq_some.1 h
    rw [hsecond.tail.weight_eq, ← Option.some.inj hresult]
    simp [resultWeight, begunWeight, Begun.weight]
  | twoOfFour a a' =>
    obtain ⟨htail, hresult⟩ := Option.ite_none_right_eq_some.1 h
    rw [htail.weight_eq, ← Option.some.inj hresult]
    simp [resultWeight, begunWeight, Begun.weight]
  | threeOfFour a a' a'' =>
    obtain ⟨htail, hresult⟩ := Option.ite_none_right_eq_some.1 h
    have hle := charWeight_le (four a a' a'' b)
    rw [htail.weight_eq, ← Option.some.inj hresult]
    simpa [resultWeight, begunWeight, Begun.weight] using hle

/-- Every byte adds no more than its weight. -/
theorem resultWeight_next_le (begun : Option Begun) (b : BitVec 8) :
    resultWeight (next begun b) ≤ begunWeight begun + weight b := by
  have hfirst := resultWeight_first_le b
  cases begun with
  | none => simpa [next, begunWeight] using hfirst
  | some begun =>
    cases hmore : begun.more b with
    | some result => simpa [next, hmore, begunWeight] using resultWeight_more_le hmore
    | none =>
      -- one U+FFFD stands for all bytes of the character that has begun
      have hbegun := begun.one_le_weight
      have hsplit : resultWeight (next (some begun) b) = -1 + resultWeight (first b) := by
        simp [next, hmore, resultWeight, charWeight_replacement, add_assoc]
      simp only [hsplit, begunWeight]
      omega

/-- What is decoded weighs no more than the bytes it is decoded from. -/
theorem sum_charWeight_decodeFrom_le (begun : Option Begun) (bytes : List (BitVec 8)) :
    ((decodeFrom begun bytes).map charWeight).sum ≤
      begunWeight begun + (bytes.map weight).sum := by
  induction bytes generalizing begun with
  | nil =>
    cases begun with
    | none => simp [decodeFrom, begunWeight]
    | some begun =>
      have hbegun := begun.one_le_weight
      simp [decodeFrom, begunWeight, charWeight_replacement]
      omega
  | cons b rest ih =>
    have hnext := resultWeight_next_le begun b
    have hrest := ih (next begun b).2
    have hsplit : decodeFrom begun (b :: rest) =
        (next begun b).1 ++ decodeFrom (next begun b).2 rest := by
      cases begun <;> rfl
    simp only [hsplit, List.map_append, List.sum_append, List.map_cons, List.sum_cons]
    rw [resultWeight] at hnext
    omega

/-- The characters that bytes are decoded to have no more weight than the bytes. -/
theorem sum_charWeight_fromUtf8Lossy_le (bytes : List (BitVec 8)) :
    ((fromUtf8Lossy bytes).map charWeight).sum ≤ (bytes.map weight).sum := by
  simpa [begunWeight, fromUtf8Lossy] using sum_charWeight_decodeFrom_le none bytes

end Utf8
