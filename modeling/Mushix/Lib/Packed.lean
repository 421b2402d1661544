import Mushix.Lib.Bytes

/-!
# Packed records in memory

Records without padding: the bytes of a record are the bytes of its fields, one behind the other,
and the bytes of an array are those of its elements.

* `Stores`: the bytes of a list lie in memory;
* `Stores.append_iff`: the two parts of a list;
* `Stores.readLE`: a number that was stored is read;
* `Stores.element`, `stores_readArray`: an element of an array, and all its numbers;
* `Stores.replace`, `Stores.set`: a store to a part of a record, and to one element.
-/

namespace Packed

open Bytes (Memory AgreeOn readLE toLE)

variable {m m' : Memory} {a n v : ℕ} {bs cs : List (BitVec 8)}

/-- The bytes lie in memory from the address `a` on. -/
def Stores (m : Memory) (a : ℕ) (bs : List (BitVec 8)) : Prop :=
  ∀ i b, bs[i]? = some b → m (a + i) = b

namespace Stores

theorem nil (m : Memory) (a : ℕ) : Stores m a [] := fun _ _ h => nomatch h

/-- A list is stored as its first byte and the others behind it. -/
theorem cons_iff {b : BitVec 8} : Stores m a (b :: bs) ↔ m a = b ∧ Stores m (a + 1) bs := by
  constructor
  · intro h
    refine ⟨h 0 b rfl, fun i c hc => ?_⟩
    rw [Nat.add_assoc, Nat.add_comm 1 i]
    exact h (i + 1) c hc
  · rintro ⟨hb, hbs⟩ i c hc
    cases i with
    | zero => exact hb.trans (Option.some.inj hc)
    | succ i =>
      rw [Nat.add_comm i 1, ← Nat.add_assoc]
      exact hbs i c hc

/-- Two lists are stored one behind the other. -/
theorem append_iff : Stores m a (bs ++ cs) ↔ Stores m a bs ∧ Stores m (a + bs.length) cs := by
  induction bs generalizing a with
  | nil => exact (and_iff_right (nil m a)).symm
  | cons b bs ih =>
    rw [List.cons_append, cons_iff, cons_iff, ih, List.length_cons, and_assoc, Nat.add_assoc,
      Nat.add_comm 1 bs.length]

/-- Only the bytes of the record matter. -/
theorem congr (h : Stores m a bs) (hagree : AgreeOn a bs.length m m') : Stores m' a bs := by
  intro i b hb
  have hi := (List.getElem?_eq_some_iff.1 hb).1
  rw [← hagree (a + i) (Nat.le_add_right a i) (Nat.add_lt_add_left hi a)]
  exact h i b hb

/-- A number of `n` bytes. -/
theorem readLE (h : Stores m a (toLE n v)) : Bytes.readLE m a n = v % 256 ^ n := by
  induction n generalizing a v with
  | zero => rw [Bytes.readLE, Nat.pow_zero, Nat.mod_one]
  | succ n ih =>
    obtain ⟨hlow, hrest⟩ := cons_iff.1 h
    calc Bytes.readLE m a (n + 1)
        = v % 256 + 256 * (v / 256 % 256 ^ n) := by
          rw [Bytes.readLE, hlow, ih hrest, BitVec.toNat_ofNat]
      _ = v % (256 * 256 ^ n) := (Nat.mod_mul ..).symm
      _ = v % 256 ^ (n + 1) := by rw [Nat.pow_succ']

/-- A word of `8 * n` bits. -/
theorem readLE_toNat {w : ℕ} {x : BitVec w} (h : Stores m a (toLE n x.toNat))
    (hw : 2 ^ w ≤ 256 ^ n) : Bytes.readLE m a n = x.toNat := by
  rw [h.readLE, Nat.mod_eq_of_lt (x.isLt.trans_le hw)]

end Stores

/-- The size of an array whose elements have `k` bytes. -/
theorem length_flatMap {α : Type*} {bytes : α → List (BitVec 8)} {k : ℕ}
    (hlen : ∀ x, (bytes x).length = k) (xs : List α) :
    (xs.flatMap bytes).length = k * xs.length := by
  induction xs with
  | nil => rfl
  | cons x xs ih =>
    rw [List.flatMap_cons, List.length_append, ih, hlen, List.length_cons, Nat.mul_succ,
      Nat.add_comm]

namespace Stores

/-- An element of an array whose elements have `k` bytes. -/
theorem element {α : Type*} {bytes : α → List (BitVec 8)} {k : ℕ}
    (hlen : ∀ x, (bytes x).length = k) {xs : List α} (h : Stores m a (xs.flatMap bytes)) {i : ℕ}
    {x : α} (hx : xs[i]? = some x) : Stores m (a + k * i) (bytes x) := by
  induction xs generalizing a i with
  | nil => cases hx
  | cons y xs ih =>
    rw [List.flatMap_cons, append_iff, hlen] at h
    cases i with
    | zero =>
      cases hx
      exact h.1
    | succ i =>
      rw [Nat.mul_succ, Nat.add_comm (k * i), ← Nat.add_assoc]
      exact ih h.2 hx

end Stores

/-- The memory after the bytes have been stored from the address `a` on. -/
def store (m : Memory) (a : ℕ) (bs : List (BitVec 8)) : Memory := fun x =>
  if a ≤ x then (bs[x - a]?).getD (m x) else m x

theorem stores_store (m : Memory) (a : ℕ) (bs : List (BitVec 8)) : Stores (store m a bs) a bs := by
  intro i b hb
  rw [store, if_pos (Nat.le_add_right a i), Nat.add_sub_cancel_left, hb, Option.getD_some]

theorem store_of_not_mem {x : ℕ} (h : x < a ∨ a + bs.length ≤ x) : store m a bs x = m x := by
  unfold store
  split
  next hle => rw [List.getElem?_eq_none (by omega), Option.getD_none]
  next => rfl

/-- A store beside a record leaves it as it is. -/
theorem Stores.store {b : ℕ} (h : Stores m a bs)
    (hapart : a + bs.length ≤ b ∨ b + cs.length ≤ a) : Stores (store m b cs) a bs :=
  h.congr fun x hlo hhi => (store_of_not_mem (by omega)).symm

/-- A store to a part of a record, of the length of this part. -/
theorem Stores.replace {old new post : List (BitVec 8)} (h : Stores m a (bs ++ (old ++ post)))
    (hlen : new.length = old.length) :
    Stores (Packed.store m (a + bs.length) new) a (bs ++ (new ++ post)) := by
  rw [append_iff, append_iff] at h ⊢
  obtain ⟨hfront, -, hback⟩ := h
  refine ⟨hfront.store (.inl le_rfl), stores_store _ _ new, ?_⟩
  rw [hlen]
  exact hback.store (.inr (Nat.add_le_add_left hlen.le _))

/-- A store to one element of an array. -/
theorem Stores.set {α : Type*} {bytes : α → List (BitVec 8)} {k : ℕ}
    (hlen : ∀ x, (bytes x).length = k) {xs : List α} (h : Stores m a (xs.flatMap bytes)) {i : ℕ}
    (hi : i < xs.length) (y : α) :
    Stores (Packed.store m (a + k * i) (bytes y)) a ((xs.set i y).flatMap bytes) := by
  have hsplit : xs = xs.take i ++ xs[i] :: xs.drop (i + 1) := by
    rw [← List.drop_eq_getElem_cons hi, List.take_append_drop]
  have hfront : ((xs.take i).flatMap bytes).length = k * i := by
    rw [length_flatMap hlen, List.length_take_of_le hi.le]
  rw [hsplit, List.flatMap_append, List.flatMap_cons] at h
  rw [List.set_eq_take_append_cons_drop, if_pos hi, List.flatMap_append, List.flatMap_cons,
    ← hfront]
  exact h.replace ((hlen y).trans (hlen xs[i]).symm)

/-- A number is stored in the bytes that it is read from. -/
theorem stores_readLE (m : Memory) (a n : ℕ) : Stores m a (toLE n (Bytes.readLE m a n)) := by
  induction n generalizing a with
  | zero => exact .nil m a
  | succ n ih =>
    have hlt := (m a).isLt
    have hbyte : BitVec.ofNat 8 (Bytes.readLE m a (n + 1)) = m a := by
      apply BitVec.eq_of_toNat_eq
      rw [BitVec.toNat_ofNat, Bytes.readLE]
      omega
    have hrest : Bytes.readLE m a (n + 1) / 256 = Bytes.readLE m (a + 1) n := by
      rw [Bytes.readLE]
      omega
    rw [toLE, Stores.cons_iff, hbyte, hrest]
    exact ⟨rfl, ih (a + 1)⟩

/-- An array is stored where it is read from. -/
theorem stores_readArray (m : Memory) (a k n : ℕ) :
    Stores m a ((Bytes.readArray m a k n).flatMap (toLE k)) := by
  induction n with
  | zero => exact .nil m a
  | succ n ih =>
    have hlen : ∀ v, (toLE k v).length = k := fun v => Bytes.length_toLE k v
    rw [Bytes.readArray_succ, List.flatMap_append, Stores.append_iff, length_flatMap hlen]
    have hcount : (Bytes.readArray m a k n).length = n := by simp [Bytes.readArray]
    rw [hcount, List.flatMap_singleton]
    exact ⟨ih, stores_readLE m _ k⟩

end Packed
