import Mathlib.Data.Nat.Notation
import Mathlib.Tactic.Ring

/-!
# Byte-addressed memory

A memory is a function from addresses to bytes. `readLE` and `writeLE` access `n` bytes from
an address on as one little-endian number.

* `readLE_writeLE`: what was written is read back;
* `writeLE_of_not_mem`: a write changes the bytes of its own interval only;
* `readLE_congr`: a read depends on the bytes of its own interval only.

`readArray` reads several numbers, one behind the other. `ofLE` and `toLE` are the same for a list
of bytes, and `ofBE` is for a list that starts with the highest byte.
-/

namespace Bytes

/-- A byte for every address. -/
abbrev Memory := ℕ → BitVec 8

/-- The number stored in the `n` bytes from `a` on. -/
def readLE (m : Memory) (a : ℕ) : ℕ → ℕ
  | 0 => 0
  | n + 1 => (m a).toNat + 256 * readLE m (a + 1) n

/-- Store `v` in the `n` bytes from `a` on. -/
def writeLE (m : Memory) (a n v : ℕ) : Memory := fun x =>
  if a ≤ x ∧ x < a + n then BitVec.ofNat 8 (v / 256 ^ (x - a)) else m x

/-- Two memories agree on the `n` bytes from `a` on. -/
def AgreeOn (a n : ℕ) (m m' : Memory) : Prop := ∀ x, a ≤ x → x < a + n → m x = m' x

variable {m m' : Memory} {a b n k v x : ℕ}

/-- Inside of a write the bytes are those of the number. -/
theorem writeLE_of_mem (h : a ≤ x) (h' : x < a + n) :
    writeLE m a n v x = BitVec.ofNat 8 (v / 256 ^ (x - a)) := if_pos ⟨h, h'⟩

theorem writeLE_of_not_mem (h : x < a ∨ a + n ≤ x) : writeLE m a n v x = m x := by
  rw [writeLE, if_neg]
  omega

/-- A read depends on the bytes of its interval only. -/
theorem readLE_congr (h : AgreeOn a n m m') : readLE m a n = readLE m' a n := by
  induction n generalizing a with
  | zero => rfl
  | succ n ih =>
    have hrest : readLE m (a + 1) n = readLE m' (a + 1) n :=
      ih fun x hlo hhi => h x (by omega) (by omega)
    rw [readLE, readLE, h a (by omega) (by omega), hrest]

/-- A number of `n` bytes is below `256 ^ n`. -/
theorem readLE_lt (m : Memory) (a n : ℕ) : readLE m a n < 256 ^ n := by
  induction n generalizing a with
  | zero => exact Nat.one_pos
  | succ n ih =>
    have hbyte := (m a).isLt
    have hrest := ih (a + 1)
    rw [readLE, Nat.pow_succ]
    omega

/-- What was written is read back. -/
theorem readLE_writeLE (m : Memory) (a n : ℕ) (hv : v < 256 ^ n) :
    readLE (writeLE m a n v) a n = v := by
  induction n generalizing m a v with
  | zero =>
    rw [readLE]
    omega
  | succ n ih =>
    have hrest : readLE (writeLE m a (n + 1) v) (a + 1) n = v / 256 := by
      rw [← ih m (a + 1) (v := v / 256) (by rw [Nat.pow_succ] at hv; omega)]
      refine readLE_congr fun x hlo hhi => ?_
      rw [writeLE_of_mem (by omega) (by omega), writeLE_of_mem hlo hhi, Nat.div_div_eq_div_mul,
        ← Nat.pow_succ', show (x - (a + 1)).succ = x - a by omega]
    have hbyte : (writeLE m a (n + 1) v a).toNat = v % 256 := by
      rw [writeLE_of_mem (by omega) (by omega), Nat.sub_self, Nat.pow_zero, Nat.div_one,
        BitVec.toNat_ofNat]
    rw [readLE, hbyte, hrest]
    omega

/-- The bytes of the number that is read. -/
theorem readLE_div_mod (m : Memory) (a : ℕ) (h : k < n) :
    readLE m a n / 256 ^ k % 256 = (m (a + k)).toNat := by
  induction n generalizing a k with
  | zero => exact absurd h (Nat.not_lt_zero k)
  | succ n ih =>
    have hbyte := (m a).isLt
    cases k with
    | zero =>
      simp only [readLE, Nat.pow_zero, Nat.div_one, Nat.add_zero]
      omega
    | succ k =>
      have hrest : readLE m a (n + 1) / 256 = readLE m (a + 1) n := by
        rw [readLE]
        omega
      rw [Nat.pow_succ', ← Nat.div_div_eq_div_mul, hrest, ih (a + 1) (Nat.lt_of_succ_lt_succ h),
        Nat.add_right_comm, Nat.add_assoc]

/-- Writing back what was read changes nothing. -/
theorem writeLE_readLE (m : Memory) (a n : ℕ) : writeLE m a n (readLE m a n) = m := by
  funext x
  rcases Nat.lt_or_ge x a with hlt | hge
  · exact writeLE_of_not_mem (.inl hlt)
  rcases Nat.lt_or_ge x (a + n) with hlt | hge'
  · rw [writeLE_of_mem hge hlt]
    apply BitVec.eq_of_toNat_eq
    rw [BitVec.toNat_ofNat, readLE_div_mod m a (by omega), Nat.add_sub_cancel' hge]
  · exact writeLE_of_not_mem (.inr hge')

/-- A write to another interval does not change what is read. -/
theorem readLE_writeLE_of_disjoint (h : b + k ≤ a ∨ a + n ≤ b) :
    readLE (writeLE m b k v) a n = readLE m a n := by
  refine readLE_congr fun x hlo hhi => writeLE_of_not_mem ?_
  omega

/-! ## Arrays -/

/-- The `n` numbers of `k` bytes that are stored from `a` on. -/
def readArray (m : Memory) (a k n : ℕ) : List ℕ :=
  (List.range n).map fun i => readLE m (a + k * i) k

/-- The last element of an array is read last. -/
theorem readArray_succ (m : Memory) (a k n : ℕ) :
    readArray m a k (n + 1) = readArray m a k n ++ [readLE m (a + k * n) k] := by
  simp [readArray, List.range_succ]

/-- An array depends on the bytes of its interval only. -/
theorem readArray_congr (h : AgreeOn a (k * n) m m') :
    readArray m a k n = readArray m' a k n := by
  refine List.map_congr_left fun i hi => readLE_congr fun x hlo hhi => h x (by omega) ?_
  have hle : k * (i + 1) ≤ k * n := Nat.mul_le_mul_left k (List.mem_range.1 hi)
  rw [Nat.mul_succ] at hle
  omega

/-- A number that is written behind an array makes it longer. -/
theorem readArray_writeLE (m : Memory) (a n : ℕ) (hv : v < 256 ^ k) :
    readArray (writeLE m (a + k * n) k v) a k (n + 1) = readArray m a k n ++ [v] := by
  have hfirst : readArray (writeLE m (a + k * n) k v) a k n = readArray m a k n :=
    readArray_congr fun x _ hhi => writeLE_of_not_mem (.inl hhi)
  rw [readArray_succ, hfirst, readLE_writeLE m _ k hv]

/-! ## Lists of bytes -/

/-- The number that is stored in a list of bytes, the lowest one first. -/
def ofLE : List (BitVec 8) → ℕ
  | [] => 0
  | b :: bs => b.toNat + 256 * ofLE bs

/-- The `n` lowest bytes of a number, the lowest one first. -/
def toLE : ℕ → ℕ → List (BitVec 8)
  | 0, _ => []
  | n + 1, v => BitVec.ofNat 8 v :: toLE n (v / 256)

/-- A list of bytes is bounded by its length. -/
theorem ofLE_lt (bs : List (BitVec 8)) : ofLE bs < 256 ^ bs.length := by
  induction bs with
  | nil => exact Nat.one_pos
  | cons b bs ih =>
    have hbyte := b.isLt
    rw [ofLE, List.length_cons, Nat.pow_succ]
    omega

@[simp]
theorem length_toLE (n v : ℕ) : (toLE n v).length = n := by
  induction n generalizing v with
  | zero => rfl
  | succ n ih => rw [toLE, List.length_cons, ih]

/-- The bytes of the number that a list of bytes stores. -/
theorem toLE_ofLE (bs : List (BitVec 8)) : toLE bs.length (ofLE bs) = bs := by
  induction bs with
  | nil => rfl
  | cons b bs ih =>
    have hlow : BitVec.ofNat 8 (b.toNat + 256 * ofLE bs) = b := by
      apply BitVec.eq_of_toNat_eq
      rw [BitVec.toNat_ofNat]
      omega
    have hhigh : (b.toNat + 256 * ofLE bs) / 256 = ofLE bs := by omega
    rw [List.length_cons, ofLE, toLE, hlow, hhigh, ih]

/-- The number that the lowest bytes of a number store. -/
theorem ofLE_toLE (n v : ℕ) : ofLE (toLE n v) = v % 256 ^ n := by
  induction n generalizing v with
  | zero => rw [toLE, ofLE, Nat.pow_zero, Nat.mod_one]
  | succ n ih =>
    calc ofLE (toLE (n + 1) v)
        = v % 256 + 256 * (v / 256 % 256 ^ n) := by rw [toLE, ofLE, ih, BitVec.toNat_ofNat]
      _ = v % (256 * 256 ^ n) := (Nat.mod_mul ..).symm
      _ = v % 256 ^ (n + 1) := by rw [Nat.pow_succ']

/-- The number that is stored in a list of bytes, the highest one first. -/
def ofBE (bs : List (BitVec 8)) : ℕ := ofLE bs.reverse

/-- The bytes in the other order have the other order's value. -/
theorem ofBE_reverse_toLE (n v : ℕ) : ofBE (toLE n v).reverse = v % 256 ^ n := by
  rw [ofBE, List.reverse_reverse, ofLE_toLE]

end Bytes
