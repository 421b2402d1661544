import Mathlib.Data.BitVec
import Mushix.Lib.Bytes

/-!
# Stacks in memory

A stack of words of 64 bits that grows downwards in a memory whose addresses wrap around.

* `load`, `store`: some bytes as a little-endian number;
* `Holds`: the words of a stack, from the stack pointer on;
* `Holds.push`: one more word;
* `Holds.store`, `Holds.congr`: what is written below the stack pointer, or nowhere in the stack,
  leaves it alone.
-/

namespace Stack

open Bytes (readLE writeLE)

variable {w : ℕ}

/-- A byte for every address of `w` bits. -/
abbrev Memory (w : ℕ) := BitVec w → BitVec 8

/-- The number stored in the `n` bytes from `a` on. -/
def load (m : Memory w) (a : BitVec w) (n : ℕ) : ℕ :=
  readLE (fun i => m (a + BitVec.ofNat w i)) 0 n

/-- Store `v` in the `n` bytes from `a` on. -/
def store (m : Memory w) (a : BitVec w) (n v : ℕ) : Memory w := fun x =>
  if (x - a).toNat < n then BitVec.ofNat 8 (v / 256 ^ (x - a).toNat) else m x

/-- The word at the address `a`. -/
def word (m : Memory w) (a : BitVec w) : BitVec 64 := BitVec.ofNat 64 (load m a 8)

/-- The stack from `sp` on holds these words, the last one that was pushed in front. -/
def Holds (m : Memory w) (sp : BitVec w) : List (BitVec 64) → Prop
  | [] => True
  | v :: vs => word m sp = v ∧ Holds m (sp + BitVec.ofNat w 8) vs

variable {m m' : Memory w} {a sp : BitVec w} {i k n v : ℕ} {x : BitVec 64}
  {vs : List (BitVec 64)}

/-- The distance of an address above another one. -/
theorem toNat_add_sub (a : BitVec w) (hi : i < 2 ^ w) : (a + BitVec.ofNat w i - a).toNat = i := by
  rw [add_sub_cancel_left, BitVec.toNat_ofNat, Nat.mod_eq_of_lt hi]

/-- What was stored is loaded again. -/
theorem load_store (m : Memory w) (a : BitVec w) (hn : n ≤ 2 ^ w) (hv : v < 256 ^ n) :
    load (store m a n v) a n = v := by
  -- seen from the address `a`, the bytes are those of a store at 0
  have hbytes : Bytes.AgreeOn 0 n (fun i => store m a n v (a + BitVec.ofNat w i))
      (writeLE (fun _ => 0) 0 n v) := by
    intro i _ hi
    rw [Nat.zero_add] at hi
    change store m a n v (a + BitVec.ofNat w i) = _
    rw [store, toNat_add_sub a (hi.trans_le hn), if_pos hi,
      Bytes.writeLE_of_mem (Nat.zero_le i) (by omega), Nat.sub_zero]
  rw [load, Bytes.readLE_congr hbytes, Bytes.readLE_writeLE _ 0 n hv]

/-- A number depends on its own bytes only. -/
theorem load_congr (h : ∀ i < n, m (a + BitVec.ofNat w i) = m' (a + BitVec.ofNat w i)) :
    load m a n = load m' a n :=
  Bytes.readLE_congr fun i _ hi => h i (by omega)

theorem word_store (m : Memory w) (a : BitVec w) (x : BitVec 64) (hw : 8 ≤ 2 ^ w) :
    word (store m a 8 x.toNat) a = x := by
  rw [word, load_store m a hw x.isLt, BitVec.ofNat_toNat, BitVec.setWidth_eq]

/-- A word of `n` bytes can be stored in them. -/
theorem toNat_lt (y : BitVec (8 * n)) : y.toNat < 256 ^ n := by
  rw [show 256 = 2 ^ 8 by rfl, ← Nat.pow_mul]
  exact y.isLt

/-- A byte that is not among the `n` bytes from `k` below `sp` on is left alone. -/
theorem store_below (hn : n ≤ k) (hroom : k + i < 2 ^ w) :
    store m (sp - BitVec.ofNat w k) n v (sp + BitVec.ofNat w i) = m (sp + BitVec.ofNat w i) := by
  -- the byte is `k + i` bytes above the start of the store, which does not wrap around
  have hdist : sp + BitVec.ofNat w i - (sp - BitVec.ofNat w k) = BitVec.ofNat w (k + i) := by
    rw [BitVec.ofNat_add]
    ring
  rw [store, hdist, BitVec.toNat_ofNat, Nat.mod_eq_of_lt hroom, if_neg (by omega)]

/-- A word in the middle of a stack. -/
theorem Holds.word_at (h : Holds m sp vs) {u : BitVec 64} (hget : vs[i]? = some u) :
    word m (sp + BitVec.ofNat w (8 * i)) = u := by
  induction vs generalizing sp i with
  | nil => cases hget
  | cons v vs ih =>
    cases i with
    | zero =>
      rw [Nat.mul_zero, BitVec.add_zero]
      exact h.1.trans (Option.some.inj hget)
    | succ i =>
      rw [Nat.mul_succ, Nat.add_comm, BitVec.ofNat_add, ← BitVec.add_assoc]
      exact ih h.2 hget

namespace Holds

/-- The lower and the upper part of a stack. -/
theorem append_iff {us : List (BitVec 64)} : Holds m sp (us ++ vs) ↔
    Holds m sp us ∧ Holds m (sp + BitVec.ofNat w (8 * us.length)) vs := by
  induction us generalizing sp with
  | nil => simp [Holds]
  | cons u us ih =>
    rw [List.cons_append, Holds, Holds, ih, and_assoc, List.length_cons, Nat.mul_succ,
      Nat.add_comm, BitVec.ofNat_add, BitVec.add_assoc]

/-- A stack depends on its own bytes only. -/
theorem congr (h : Holds m sp vs)
    (hbytes : ∀ i < 8 * vs.length, m' (sp + BitVec.ofNat w i) = m (sp + BitVec.ofNat w i)) :
    Holds m' sp vs := by
  induction vs generalizing sp with
  | nil => trivial
  | cons v vs ih =>
    obtain ⟨hword, hrest⟩ := h
    rw [List.length_cons] at hbytes
    refine ⟨?_, ih hrest fun i hi => ?_⟩
    · rw [word, load_congr fun i hi => hbytes i (by omega)]
      exact hword
    · rw [BitVec.add_assoc, ← BitVec.ofNat_add]
      exact hbytes (8 + i) (by omega)

/-- What is written below the stack pointer does not reach the stack, as long as there is room. -/
theorem store (h : Holds m sp vs) (hn : n ≤ k) (hroom : k + 8 * vs.length ≤ 2 ^ w) :
    Holds (store m (sp - BitVec.ofNat w k) n v) sp vs :=
  h.congr fun i hi => store_below hn (by omega)

/-- A word that is pushed. -/
theorem push (h : Holds m sp vs) (x : BitVec 64) (hroom : 8 * (vs.length + 1) ≤ 2 ^ w) :
    Holds (Stack.store m (sp - BitVec.ofNat w 8) 8 x.toNat) (sp - BitVec.ofNat w 8) (x :: vs) := by
  refine ⟨word_store m _ x (by omega), ?_⟩
  rw [BitVec.sub_add_cancel]
  exact h.store le_rfl (by omega)

end Holds

end Stack
