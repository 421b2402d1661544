import Mathlib.Data.Nat.ModEq
import Mathlib.Data.List.Basic

/-!
# Rings whose slots change hands by a cycle bit

A producer and a consumer share `N` slots and no index. The producer writes the slots in
order and inverts the bit it stores after each lap; the consumer compares the bit of its
next slot with the bit the producer stores on the consumer's own lap.

The module introduces:

* `slotCount N p j`: how often slot `j` has been written after `p` writes;
* `producerBit N p`: the bit the producer stores with its write number `p`;
* `slotBit N p j`: the bit in slot `j` after `p` writes into cleared memory;
* `Holds N slot bit hist`: the ring memory after the writes `hist`.

`Holds.bit_eq_producerBit_iff` is the point of the protocol: as long as the producer is at
most one lap ahead, one bit decides whether the consumer's next slot holds a new item.
-/

namespace CycleRing

variable {α : Type*} {N p c j : ℕ}

/-- The number of times slot `j` has been written after `p` writes in slot order: once for
each full lap, and once more when the current lap has passed the slot. -/
def slotCount (N p j : ℕ) : ℕ := p / N + if j < p % N then 1 else 0

/-- The bit stored with write number `p`: set on the laps `0, 2, 4, …`. -/
def producerBit (N p : ℕ) : Bool := decide (p / N % 2 = 0)

/-- The bit in slot `j` after `p` writes into memory whose bits were all clear. -/
def slotBit (N p j : ℕ) : Bool := decide (slotCount N p j % 2 = 1)

/-- No slot was written before the first push. -/
@[simp]
theorem slotCount_zero : slotCount N 0 j = 0 := by
  simp [slotCount]

/-- The cycle bit of a slot that was never written is clear. -/
@[simp]
theorem slotBit_zero : slotBit N 0 j = false := by
  simp [slotBit]

/-- The producer starts with the cycle bit set. -/
@[simp]
theorem producerBit_zero : producerBit N 0 = true := by
  simp [producerBit]

/-- The quotient and the remainder of `p + 1` when the lap goes on. -/
private theorem succ_div_mod_of_lt (h : p % N + 1 < N) :
    (p + 1) / N = p / N ∧ (p + 1) % N = p % N + 1 := by
  have hdiv : (p + 1) / N = p / N := by
    rw [Nat.div_eq_of_lt_le]
    · have := Nat.div_mul_le_self p N
      omega
    · have := Nat.div_add_mod p N
      rw [Nat.add_one_mul, Nat.mul_comm]
      omega
  refine ⟨hdiv, ?_⟩
  have h0 := Nat.div_add_mod p N
  have h1 := Nat.div_add_mod (p + 1) N
  rw [hdiv] at h1
  omega

/-- The quotient and the remainder of `p + 1` when the lap ends. -/
private theorem succ_div_mod_of_eq (hN : 0 < N) (h : p % N + 1 = N) :
    (p + 1) / N = p / N + 1 ∧ (p + 1) % N = 0 := by
  have h0 := Nat.div_add_mod p N
  have hp : p + 1 = N * (p / N + 1) := by
    rw [Nat.mul_add_one]
    omega
  rw [hp]
  exact ⟨Nat.mul_div_cancel_left _ hN, Nat.mul_mod_right _ _⟩

/-- Each write counts for the slot it goes to. -/
theorem slotCount_succ_self (hN : 0 < N) :
    slotCount N (p + 1) (p % N) = slotCount N p (p % N) + 1 := by
  have := Nat.mod_lt p hN
  rcases Nat.lt_or_ge (p % N + 1) N with h | h
  · obtain ⟨hdiv, hmod⟩ := succ_div_mod_of_lt (p := p) h
    simp [slotCount, hdiv, hmod]
  · obtain ⟨hdiv, hmod⟩ := succ_div_mod_of_eq (p := p) hN (by omega)
    simp [slotCount, hdiv, hmod]

/-- A write leaves the count of every other slot as it was. -/
theorem slotCount_succ_of_ne (hj : j < N) (hne : j ≠ p % N) :
    slotCount N (p + 1) j = slotCount N p j := by
  have hN : 0 < N := by omega
  have := Nat.mod_lt p hN
  rcases Nat.lt_or_ge (p % N + 1) N with h | h
  · obtain ⟨hdiv, hmod⟩ := succ_div_mod_of_lt (p := p) h
    simp only [slotCount, hdiv, hmod]
    split <;> split <;> omega
  · obtain ⟨hdiv, hmod⟩ := succ_div_mod_of_eq (p := p) hN (by omega)
    have hlt : j < p % N := by omega
    simp [slotCount, hdiv, hmod, hlt]

/-- A reader that is at most one lap behind finds its next slot written once per lap of its
own, and once more exactly when there is an item it has not read. -/
theorem slotCount_mod (hN : 0 < N) (hcp : c ≤ p) (hpc : p ≤ c + N) :
    slotCount N p (c % N) = c / N + if c < p then 1 else 0 := by
  have hlo : c / N ≤ p / N := Nat.div_le_div_right hcp
  have hhi : p / N ≤ c / N + 1 := by
    rw [← Nat.add_div_right c hN]
    exact Nat.div_le_div_right hpc
  have hc := Nat.div_add_mod c N
  have hp := Nat.div_add_mod p N
  have hcN := Nat.mod_lt c hN
  have hpN := Nat.mod_lt p hN
  -- the producer is on the reader's lap or on the next one
  rcases Nat.eq_or_lt_of_le hlo with heq | hlt
  · rw [← heq] at hp
    simp only [slotCount, ← heq]
    split <;> split <;> omega
  · have heq : p / N = c / N + 1 := by omega
    rw [heq, Nat.mul_add_one] at hp
    simp only [slotCount, heq]
    split <;> split <;> omega

/-- The bit the producer is about to overwrite is the inverse of the one it will store. -/
theorem slotBit_self (hN : 0 < N) : slotBit N p (p % N) = !producerBit N p := by
  rw [slotBit, slotCount_mod hN le_rfl (by omega), producerBit]
  rcases Nat.mod_two_eq_zero_or_one (p / N) with h | h <;> simp [h]

/-- A write stores the producer's bit. -/
theorem slotBit_succ_self (hN : 0 < N) : slotBit N (p + 1) (p % N) = producerBit N p := by
  have h := slotBit_self (p := p) hN
  rw [slotBit] at h ⊢
  rw [slotCount_succ_self hN]
  rcases Nat.mod_two_eq_zero_or_one (slotCount N p (p % N)) with h' | h'
  · simpa [h', Nat.add_mod (slotCount N p (p % N)) 1 2] using h.symm
  · simpa [h', Nat.add_mod (slotCount N p (p % N)) 1 2] using h.symm

/-- A write leaves every other bit as it was. -/
theorem slotBit_succ_of_ne (hj : j < N) (hne : j ≠ p % N) :
    slotBit N (p + 1) j = slotBit N p j := by
  rw [slotBit, slotBit, slotCount_succ_of_ne hj hne]

/-- The producer inverts its bit when it wraps, and only then. -/
theorem producerBit_succ (hN : 0 < N) :
    producerBit N (p + 1) =
      if (p + 1) % N = 0 then !producerBit N p else producerBit N p := by
  have := Nat.mod_lt p hN
  rcases Nat.lt_or_ge (p % N + 1) N with h | h
  · obtain ⟨hdiv, hmod⟩ := succ_div_mod_of_lt (p := p) h
    simp [producerBit, hdiv, hmod]
  · obtain ⟨hdiv, hmod⟩ := succ_div_mod_of_eq (p := p) hN (by omega)
    rcases Nat.mod_two_eq_zero_or_one (p / N) with h' | h'
    · simp [producerBit, hdiv, hmod, h', Nat.add_mod (p / N) 1 2]
    · simp [producerBit, hdiv, hmod, h', Nat.add_mod (p / N) 1 2]

/-- For a reader at most one lap behind, the bit of its next slot is the bit of its own lap
exactly when there is an item it has not read. -/
theorem slotBit_mod_iff (hN : 0 < N) (hcp : c ≤ p) (hpc : p ≤ c + N) :
    slotBit N p (c % N) = producerBit N c ↔ c < p := by
  rw [slotBit, slotCount_mod hN hcp hpc, producerBit]
  rcases Nat.mod_two_eq_zero_or_one (c / N) with h | h <;>
    by_cases hlt : c < p <;> simp [h, hlt, Nat.add_mod (c / N) 1 2]

/-! ## The ring memory -/

/-- The memory of a ring of `N` slots after the writes `hist`: `slot j` is the content of
slot `j`, of which only the last `N` writes are left, and `bit j` is its cycle bit. -/
structure Holds (N : ℕ) (slot : ℕ → α) (bit : ℕ → Bool) (hist : List α) : Prop where
  /-- Every bit tells the parity of the number of writes to its slot. -/
  bit_eq : ∀ j < N, bit j = slotBit N hist.length j
  /-- A write is found in its slot until the producer comes round again. -/
  slot_eq : ∀ k (hk : k < hist.length), hist.length ≤ k + N → slot (k % N) = hist[k]

namespace Holds

variable {slot slot' : ℕ → α} {bit bit' : ℕ → Bool} {hist : List α} {x : α}

/-- Cleared memory holds the empty history. -/
theorem nil (h : ∀ j < N, bit j = false) : Holds N slot bit [] where
  bit_eq j hj := by simp [h j hj]
  slot_eq k hk := by simp at hk

/-- One write: the next slot in order gets the item and the producer's bit, and nothing else
changes. -/
theorem push (hN : 0 < N) (h : Holds N slot bit hist)
    (hslot : slot' (hist.length % N) = x)
    (hbit : bit' (hist.length % N) = producerBit N hist.length)
    (hslot' : ∀ j < N, j ≠ hist.length % N → slot' j = slot j)
    (hbit' : ∀ j < N, j ≠ hist.length % N → bit' j = bit j) :
    Holds N slot' bit' (hist ++ [x]) where
  bit_eq j hj := by
    rw [List.length_append, List.length_singleton]
    by_cases hne : j = hist.length % N
    · rw [hne, hbit, slotBit_succ_self hN]
    · rw [hbit' j hj hne, slotBit_succ_of_ne hj hne, h.bit_eq j hj]
  slot_eq k hk hlen := by
    rw [List.length_append, List.length_singleton] at hk hlen
    rcases Nat.lt_or_ge k hist.length with hlt | hge
    · rw [List.getElem_append_left hlt, ← h.slot_eq k hlt (by omega)]
      refine hslot' _ (Nat.mod_lt _ hN) fun heq => ?_
      -- fewer than `N` writes lie between the two, so they go to different slots
      have hmod : hist.length - k ≡ 0 [MOD N] :=
        (Nat.modEq_zero_iff_dvd.2 ((Nat.modEq_iff_dvd' hlt.le).1 heq))
      have hdvd := Nat.le_of_dvd (by omega) (Nat.modEq_zero_iff_dvd.1 hmod)
      omega
    · obtain rfl : k = hist.length := by omega
      simpa using hslot

/-- One bit tells the consumer whether its next slot holds a new item. -/
theorem bit_eq_producerBit_iff (hN : 0 < N) (h : Holds N slot bit hist)
    (hc : c ≤ hist.length) (hlen : hist.length ≤ c + N) :
    bit (c % N) = producerBit N c ↔ c < hist.length := by
  rw [h.bit_eq _ (Nat.mod_lt c hN), slotBit_mod_iff hN hc hlen]

/-- The slot the producer writes next carries the inverse of the producer's bit. -/
theorem bit_next (hN : 0 < N) (h : Holds N slot bit hist) :
    bit (hist.length % N) = !producerBit N hist.length := by
  rw [h.bit_eq _ (Nat.mod_lt _ hN), slotBit_self hN]

end Holds

end CycleRing
