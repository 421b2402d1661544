import Mathlib.Algebra.Ring.Nat
import Mathlib.Order.Nat

/-!
# Durations

`core::time::Duration`: whole seconds and the nanoseconds below a second.

* `Duration.toNanos`: a duration as one number;
* `Duration.lt_iff`, `Duration.toNanos_of_checkedAdd`: comparison and addition are those of the
  numbers, as long as the seconds fit into a `u64`.
-/

namespace Mushix

/-- A `Duration` of Rust: seconds, and the nanoseconds of less than a second. -/
structure Duration where
  secs : ℕ
  nanos : ℕ
  secs_lt : secs < 2 ^ 64
  nanos_lt : nanos < 1000000000

namespace Duration

/-- No time at all. -/
def zero : Duration := { secs := 0, nanos := 0, secs_lt := by decide, nanos_lt := by decide }

/-- The duration of a number of nanoseconds. -/
def fromNanos (nanos : BitVec 64) : Duration where
  secs := nanos.toNat / 1000000000
  nanos := nanos.toNat % 1000000000
  secs_lt := (Nat.div_le_self _ _).trans_lt nanos.isLt
  nanos_lt := Nat.mod_lt _ (by decide)

/-- The sum of two durations, unless its seconds overflow. -/
def checkedAdd (self rhs : Duration) : Option Duration :=
  if hsecs : self.secs + rhs.secs < 2 ^ 64 then
    if hnanos : self.nanos + rhs.nanos < 1000000000 then
      some
        { secs := self.secs + rhs.secs
          nanos := self.nanos + rhs.nanos
          secs_lt := hsecs
          nanos_lt := hnanos }
    -- the nanoseconds carry into the seconds
    else if hcarry : self.secs + rhs.secs + 1 < 2 ^ 64 then
      some
        { secs := self.secs + rhs.secs + 1
          nanos := self.nanos + rhs.nanos - 1000000000
          secs_lt := hcarry
          nanos_lt := by have := self.nanos_lt; have := rhs.nanos_lt; omega }
    else none
  else none

/-- `#[derive(PartialOrd)]`: the seconds first. -/
instance : LT Duration where
  lt d e := d.secs < e.secs ∨ d.secs = e.secs ∧ d.nanos < e.nanos

instance (d e : Duration) : Decidable (d < e) :=
  inferInstanceAs (Decidable (d.secs < e.secs ∨ d.secs = e.secs ∧ d.nanos < e.nanos))

/-- The number of nanoseconds, which has up to 128 bits in Rust. -/
def toNanos (self : Duration) : ℕ := self.secs * 1000000000 + self.nanos

variable {d e : Duration}

theorem toNanos_fromNanos (nanos : BitVec 64) : (fromNanos nanos).toNanos = nanos.toNat :=
  Nat.div_add_mod' _ _

/-- Durations are compared as numbers of nanoseconds. -/
theorem lt_iff : d < e ↔ d.toNanos < e.toNanos := by
  have hd := d.nanos_lt
  have he := e.nanos_lt
  change d.secs < e.secs ∨ d.secs = e.secs ∧ d.nanos < e.nanos ↔ _
  simp only [toNanos]
  omega

/-- A sum whose seconds fit is returned. -/
theorem toNanos_of_checkedAdd (h : d.toNanos + e.toNanos < 2 ^ 64 * 1000000000) :
    ∃ sum, d.checkedAdd e = some sum ∧ sum.toNanos = d.toNanos + e.toNanos := by
  have hd := d.nanos_lt
  have he := e.nanos_lt
  simp only [toNanos] at h
  rw [checkedAdd, dif_pos (by omega)]
  by_cases hnanos : d.nanos + e.nanos < 1000000000
  · rw [dif_pos hnanos]
    refine ⟨_, rfl, ?_⟩
    simp only [toNanos]
    omega
  · rw [dif_neg hnanos, dif_pos (by omega)]
    refine ⟨_, rfl, ?_⟩
    simp only [toNanos]
    omega

end Duration

end Mushix
