import Mathlib.Data.Nat.Notation
import Mathlib.Data.Option.Basic

/-!
# Cursors over records of different widths

A cursor stands at a position of a sequence and moves over one record at a time. `width p` is
the width of the record at position `p`, or `none` when there is no record to move over.

* `reach`: the position after a number of records;
* `Visits`: the positions a cursor comes to;
* `reach_eq_none_iff`: in a sequence of `len` elements the cursor stops within `len` records
  exactly when it comes to no record of width 0.
-/

namespace Cursor

variable (width : ℕ → Option ℕ)

/-- The position after `k` records. -/
def reach : ℕ → Option ℕ
  | 0 => some 0
  | k + 1 => (reach k).bind fun p => (width p).map (p + ·)

/-- The cursor comes to position `p`. -/
def Visits (p : ℕ) : Prop := ∃ k, reach width k = some p

variable {width} {k m p w len : ℕ}

/-- One more step, where the item has a width. -/
theorem reach_succ (hp : reach width k = some p) (hw : width p = some w) :
    reach width (k + 1) = some (p + w) := by
  rw [reach, hp, Option.bind_some, hw, Option.map_some]

/-- There is no step where the item has no width. -/
theorem reach_succ_of_none (hp : reach width k = some p) (hw : width p = none) :
    reach width (k + 1) = none := by
  rw [reach, hp, Option.bind_some, hw, Option.map_none]

theorem visits_zero : Visits width 0 := ⟨0, rfl⟩

/-- The cursor comes to the end of every record it comes to. -/
theorem Visits.add (hp : Visits width p) (hw : width p = some w) : Visits width (p + w) := by
  obtain ⟨k, hk⟩ := hp
  exact ⟨k + 1, reach_succ hk hw⟩

/-- A cursor that has stopped does not move again. -/
theorem reach_eq_none_of_le (hk : reach width k = none) (hkm : k ≤ m) : reach width m = none := by
  induction hkm with
  | refl => exact hk
  | step _ ih => rw [reach, ih, Option.bind_none]

/-- A cursor never gets past a record of width 0. -/
theorem reach_add_of_zero (hk : reach width k = some p) (hw : width p = some 0) (j : ℕ) :
    reach width (k + j) = some p := by
  induction j with
  | zero => exact hk
  | succ j ih => exact reach_succ ih hw

/-- Without records of width 0 the cursor moves on by at least one with every record. -/
theorem le_of_reach (hpos : ∀ p, Visits width p → width p ≠ some 0)
    (hk : reach width k = some p) : k ≤ p := by
  induction k generalizing p with
  | zero => exact Nat.zero_le p
  | succ k ih =>
    cases hq : reach width k with
    | none =>
      rw [reach_eq_none_of_le hq (Nat.le_succ k)] at hk
      cases hk
    | some q =>
      cases hw : width q with
      | none =>
        rw [reach_succ_of_none hq hw] at hk
        cases hk
      | some w =>
        have hle := ih hq
        have hne : w ≠ 0 := by
          rintro rfl
          -- the record at `q` is one the cursor comes to, so it is not empty
          exact hpos q ⟨k, hq⟩ hw
        rw [reach_succ hq hw] at hk
        obtain rfl := Option.some.inj hk
        omega

/-- In a sequence of `len` elements the cursor stops within `len` records, unless it comes to a
record of width 0. -/
theorem reach_eq_none_iff (hlen : ∀ p w, width p = some w → p < len) :
    reach width (len + 1) = none ↔ ∀ p, Visits width p → width p ≠ some 0 := by
  constructor
  · rintro hnone p ⟨k, hk⟩ hw
    -- in front of a record of width 0 the cursor stands for ever
    have hstuck := reach_add_of_zero hk hw (len + 1)
    rw [reach_eq_none_of_le hnone (Nat.le_add_left _ k)] at hstuck
    cases hstuck
  · intro hpos
    cases hq : reach width len with
    | none => exact reach_eq_none_of_le hq (Nat.le_succ len)
    | some q =>
      have hle := le_of_reach hpos hq
      cases hw : width q with
      | none => exact reach_succ_of_none hq hw
      | some w =>
        -- `len` records of at least one element each end behind the sequence
        have hlt := hlen q w hw
        omega

end Cursor
