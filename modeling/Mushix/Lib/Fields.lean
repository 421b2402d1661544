import Mathlib.Logic.Function.Basic
import Mushix.Lib.BitField

/-!
# Records of bit fields

Words of `w` bits that hold several fields each, which a program replaces one at a time.

* `FieldLayout`: where the fields are, and that no two of them share a bit;
* `FieldLayout.read`, `FieldLayout.write`: one field;
* `FieldLayout.run`: a sequence of writes;
* `FieldLayout.read_run`, `FieldLayout.getLsbD_run`: after it every field holds what was written
  last, and the bits that belong to no field are left alone.
-/

namespace BitField

/-- Where the fields `ι` are in the words `κ`. -/
structure FieldLayout (κ ι : Type*) (w : ℕ) where
  word : ι → κ
  shift : ι → ℕ
  width : ι → ℕ
  width_lt (i : ι) : width i < w
  end_le (i : ι) : shift i + width i ≤ w
  apart (i j : ι) : i ≠ j → word i = word j →
    shift i + width i ≤ shift j ∨ shift j + width j ≤ shift i

namespace FieldLayout

variable {κ ι : Type*} {w : ℕ}

/-- The value of a field. -/
def read (L : FieldLayout κ ι w) (s : κ → BitVec w) (i : ι) : BitVec w :=
  (s (L.word i) >>> L.shift i) &&& lowMask w (L.width i)

/-- The value fits into the field. -/
def Fits (L : FieldLayout κ ι w) (i : ι) (v : BitVec w) : Prop := lowMask w (L.width i) &&& v = v

/-- The bit `b` of the word `k` belongs to the field. -/
def HasBit (L : FieldLayout κ ι w) (i : ι) (k : κ) (b : ℕ) : Prop :=
  L.word i = k ∧ L.shift i ≤ b ∧ b < L.shift i + L.width i

/-- A field shows the bits of its word from its shift on. -/
theorem getLsbD_read {L : FieldLayout κ ι w} {s : κ → BitVec w} {i : ι} {b : ℕ} :
    (L.read s i).getLsbD b =
      (decide (b < L.width i) && (s (L.word i)).getLsbD (L.shift i + b)) :=
  getLsbD_shiftRight_and_lowMask (L.width_lt i) _ _ _

/-- The last value that a sequence writes to a field. -/
def lastWrite [DecidableEq ι] (i : ι) (writes : List (ι × BitVec w)) : Option (BitVec w) :=
  (writes.filter (·.1 = i)).getLast?.map (·.2)

variable [DecidableEq κ]

instance (L : FieldLayout κ ι w) (i : ι) (k : κ) (b : ℕ) : Decidable (L.HasBit i k b) :=
  inferInstanceAs (Decidable (L.word i = k ∧ L.shift i ≤ b ∧ b < L.shift i + L.width i))

/-- The words after a field was replaced. -/
def write (L : FieldLayout κ ι w) (s : κ → BitVec w) (i : ι) (v : BitVec w) : κ → BitVec w :=
  Function.update s (L.word i)
    ((v <<< L.shift i) ||| (s (L.word i) &&& ~~~(lowMask w (L.width i) <<< L.shift i)))

/-- The words after a sequence of writes. -/
def run (L : FieldLayout κ ι w) (s : κ → BitVec w) (writes : List (ι × BitVec w)) : κ → BitVec w :=
  writes.foldl (fun s p => L.write s p.1 p.2) s

variable {L : FieldLayout κ ι w} {s : κ → BitVec w} {i j : ι} {k : κ} {v : BitVec w} {b : ℕ}
  {writes : List (ι × BitVec w)}

/-- A write reaches the bits of its field only. -/
theorem getLsbD_write (hfits : L.Fits i v) (hb : b < w) : (L.write s i v k).getLsbD b =
    if L.HasBit i k b then v.getLsbD (b - L.shift i) else (s k).getLsbD b := by
  -- another word is not touched
  by_cases hk : L.word i = k
  · subst hk
    rw [write, Function.update_self, getLsbD_replace (L.width_lt i) hfits hb]
    simp only [HasBit, true_and]
  · rw [write, Function.update_of_ne (Ne.symm hk), if_neg fun hbit => hk hbit.1]

theorem read_write (hfits : L.Fits i v) : L.read (L.write s i v) i = v := by
  rw [read, write, Function.update_self]
  exact shiftRight_replace (L.width_lt i) (L.end_le i) hfits

/-- A write of a field changes no other one. -/
theorem read_write_of_ne (hfits : L.Fits i v) (hne : j ≠ i) :
    L.read (L.write s i v) j = L.read s j := by
  apply BitVec.eq_of_getLsbD_eq
  intro b hb
  rw [getLsbD_read, getLsbD_read]
  -- no bit of the field `j` belongs to the field `i`
  by_cases hlt : b < L.width j
  · have hend := L.end_le j
    rw [getLsbD_write hfits (by omega), if_neg]
    rintro ⟨hword, hlo, hhi⟩
    have hapart := L.apart i j hne.symm hword
    omega
  · rw [decide_eq_false hlt, Bool.false_and, Bool.false_and]

/-- A field holds what was written to it last, or what it held before. -/
theorem read_run [DecidableEq ι] (hfits : ∀ p ∈ writes, L.Fits p.1 p.2) :
    L.read (L.run s writes) i = (lastWrite i writes).getD (L.read s i) := by
  induction writes generalizing s with
  | nil => rfl
  | cons p writes ih =>
    have hp := hfits p List.mem_cons_self
    have hrest := ih (s := L.write s p.1 p.2) fun q hq => hfits q (List.mem_cons_of_mem p hq)
    rw [run, List.foldl_cons, ← run, hrest, lastWrite, lastWrite]
    -- the first write counts where no later one is for the same field
    by_cases hi : p.1 = i
    · subst hi
      rw [List.filter_cons_of_pos (by simp), List.getLast?_cons, read_write hp]
      cases (writes.filter (·.1 = p.1)).getLast? <;> rfl
    · rw [List.filter_cons_of_neg (by simpa using hi), read_write_of_ne hp (Ne.symm hi)]

/-- A bit that belongs to no field keeps its value. -/
theorem getLsbD_run (hfits : ∀ p ∈ writes, L.Fits p.1 p.2) (hb : b < w)
    (hbit : ∀ p ∈ writes, ¬L.HasBit p.1 k b) :
    (L.run s writes k).getLsbD b = (s k).getLsbD b := by
  induction writes generalizing s with
  | nil => rfl
  | cons p writes ih =>
    have hrest := ih (s := L.write s p.1 p.2) (fun q hq => hfits q (List.mem_cons_of_mem p hq))
      fun q hq => hbit q (List.mem_cons_of_mem p hq)
    rw [run, List.foldl_cons, ← run, hrest, getLsbD_write (hfits p List.mem_cons_self) hb,
      if_neg (hbit p List.mem_cons_self)]

end FieldLayout

end BitField
