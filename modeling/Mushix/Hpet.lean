import Mathlib.Algebra.Order.Field.Rat
import Mathlib.Logic.Function.Basic
import Mathlib.Tactic.FieldSimp
import Mushix.Duration
import Mushix.Lib.Rounding
import Mushix.Loop

/-!
# The high precision event timer

`Hpet` (`hpet.rs`): the main counter of the timer and its frequency, from which
`global_timestamp` computes the time since the counter was started.

* `Hpet.new_returns`: the set up, with the frequency that is rounded down;
* `Hpet.Fits`: the counter values whose time fits into 64 bits of nanoseconds;
* `Hpet.nanosAt_mono`, `Hpet.le_nanosAt`, `Hpet.nanosAt_le`: how exact the time is.
-/

namespace Mushix

/-- The registers of one timer. -/
structure TimerRegister where
  configurationAndCapability : BitVec 64

/-- The registers of the timer block. -/
structure HpetRegisters where
  capabilitiesAndId : BitVec 64
  configuration : BitVec 64
  mainCounterValue : BitVec 64
  timers : Fin 32 → TimerRegister

/-- `Hpet`, beside its registers. -/
structure Hpet where
  numOfTimers : ℕ
  /-- Counts in a second. -/
  freq : ℕ
  freq_pos : 0 < freq

namespace Hpet

/-- `write_config(config & !(..))` for the timer `i`: no interrupts, not periodic, edge triggered
and routed nowhere. -/
def disableTimer (i : ℕ) : Method HpetRegisters Unit := do
  if h : i < 32 then
    modify fun self =>
      let config := (self.timers ⟨i, h⟩).configurationAndCapability
      { self with
        timers := Function.update self.timers ⟨i, h⟩
          { configurationAndCapability :=
              config &&& ~~~(1#64 <<< 2 ||| 1#64 <<< 3 ||| 1#64 <<< 1 ||| 0b11111#64 <<< 9) } }
  else
    throw (.panic "index out of bounds")

/-- `globally_disable` stops the main counter. -/
def globallyDisable : Method HpetRegisters Unit := do
  modify fun self => { self with configuration := self.configuration &&& ~~~0b01#64 }

/-- `globally_enable` lets the main counter run. -/
def globallyEnable : Method HpetRegisters Unit := do
  modify fun self => { self with configuration := self.configuration ||| 0b01#64 }

/-- The femtoseconds of one count, bits 32 to 63 of the capability register. -/
def fsPerCount (registers : HpetRegisters) : ℕ := (registers.capabilitiesAndId >>> 32).toNat

/-- A count takes less than `2 ^ 32` femtoseconds. -/
theorem fsPerCount_lt (registers : HpetRegisters) : fsPerCount registers < 2 ^ 32 := by
  have hlt := registers.capabilitiesAndId.isLt
  rw [fsPerCount, BitVec.toNat_ushiftRight, Nat.shiftRight_eq_div_pow]
  omega

/-- A period is less than a second. -/
theorem freq_pos_of_ne_zero {registers : HpetRegisters} (h : fsPerCount registers ≠ 0) :
    0 < 1000000000000000 / fsPerCount registers := by
  have hlt := fsPerCount_lt registers
  exact Nat.div_pos (by omega) (by omega)

/-- `new` disables all timers and lets the main counter run from 0. -/
def new : Method HpetRegisters Hpet := do
  let registers ← get
  let numOfTimers := ((registers.capabilitiesAndId >>> 8) &&& 0b11111#64).toNat + 1
  if h : fsPerCount registers = 0 then
    throw (.panic "attempt to divide by zero")
  else
    globallyDisable
    (List.range numOfTimers).forM disableTimer
    modify fun self => { self with mainCounterValue := 0 }
    globallyEnable
    return {
      numOfTimers
      freq := 1000000000000000 / fsPerCount registers
      freq_pos := freq_pos_of_ne_zero h }

/-- There are at most 32 timers, so that no index is out of bounds. -/
theorem run_disableTimer {i : ℕ} (h : i < 32) (registers : HpetRegisters) :
    disableTimer i registers = .ok () ((disableTimer i).stateAfter registers) := by
  simp only [Method.stateAfter, disableTimer, h, dif_pos]
  rfl

/-- With a period in its capability register the timer is set up, for the rounded frequency. -/
theorem new_returns {registers : HpetRegisters} (h : fsPerCount registers ≠ 0) :
    ∃ hpet registers', new registers = .ok hpet registers' ∧
      hpet.freq = 1000000000000000 / fsPerCount registers := by
  -- the field has five bits, so that there are at most 32 timers
  have hnum : ∀ i ∈ List.range
      (((registers.capabilitiesAndId >>> 8) &&& 0b11111#64).toNat + 1), i < 32 := by
    intro i hi
    have hle : ((registers.capabilitiesAndId >>> 8) &&& 0b11111#64).toNat ≤ 31 := by
      rw [BitVec.toNat_and]
      exact Nat.and_le_right
    have := List.mem_range.1 hi
    omega
  have hrun := Method.forM_eq_foldl (fun i hi => run_disableTimer (hnum i hi))
    (globallyDisable.stateAfter registers)
  have hdisable : globallyDisable registers = .ok () (globallyDisable.stateAfter registers) := rfl
  simp only [new, Method.run_get_bind, h, dif_neg, not_false_iff]
  rw [Method.bind_of_ok hdisable, Method.bind_of_ok hrun]
  exact ⟨_, _, rfl, rfl⟩

end Hpet

/-- `global_timestamp` when the main counter is read as `mainCounter`. -/
def globalTimestamp (hpet : Option Hpet) (mainCounter : BitVec 64) : Duration :=
  match hpet with
  | some hpet =>
    -- in `u128`, where the product of a `u64` and a billion does not overflow
    let ns := mainCounter.toNat * 1000000000 / hpet.freq
    .fromNanos (BitVec.ofNat 64 ns)
  | none => .zero

namespace Hpet

variable {hpet : Hpet} {p : ℕ} {c c' : BitVec 64}

/-- The nanoseconds of the counter value fit into a `u64`. -/
def Fits (hpet : Hpet) (c : BitVec 64) : Prop := c.toNat * 1000000000 / hpet.freq < 2 ^ 64

/-- The time of a counter value in nanoseconds. -/
def nanosAt (hpet : Hpet) (c : BitVec 64) : ℕ := (globalTimestamp (some hpet) c).toNanos

/-- No digit is lost in the conversion to a `u64`. -/
theorem nanosAt_eq (h : hpet.Fits c) : hpet.nanosAt c = c.toNat * 1000000000 / hpet.freq := by
  rw [nanosAt, globalTimestamp, Duration.toNanos_fromNanos, BitVec.toNat_ofNat, Nat.mod_eq_of_lt h]

/-- The time does not run backwards. -/
theorem nanosAt_mono (hle : c.toNat ≤ c'.toNat) (h : hpet.Fits c') :
    hpet.nanosAt c ≤ hpet.nanosAt c' := by
  have hquot : c.toNat * 1000000000 / hpet.freq ≤ c'.toNat * 1000000000 / hpet.freq :=
    Nat.div_le_div_right (Nat.mul_le_mul_right _ hle)
  rw [nanosAt_eq (hquot.trans_lt h), nanosAt_eq h]
  exact hquot

/-- It is not less than the exact time, rounded down to nanoseconds. -/
theorem le_nanosAt (hfreq : hpet.freq = 1000000000000000 / p) (h : hpet.Fits c) :
    c.toNat * p / 1000000 ≤ hpet.nanosAt c := by
  rw [nanosAt_eq h, hfreq]
  exact Rounding.mul_div_le_of_rate rfl (by decide) (hfreq ▸ hpet.freq_pos)

/-- It exceeds the exact time by the part that the frequency has lost, at most. -/
theorem nanosAt_le (hfreq : hpet.freq = 1000000000000000 / p) (hp : 0 < p) (h : hpet.Fits c) :
    (hpet.nanosAt c : ℚ) ≤ (c.toNat * p / 1000000 : ℚ) * (hpet.freq + 1) / hpet.freq := by
  have hle : hpet.nanosAt c * hpet.freq * 1000000 ≤ c.toNat * p * (hpet.freq + 1) := by
    rw [nanosAt_eq h, hfreq]
    exact Rounding.of_rate_mul_le rfl hp
  have hpos : (0 : ℚ) < hpet.freq := by exact_mod_cast hpet.freq_pos
  rw [le_div_iff₀ hpos, div_mul_eq_mul_div, le_div_iff₀ (by norm_num)]
  exact_mod_cast hle

end Hpet

end Mushix
