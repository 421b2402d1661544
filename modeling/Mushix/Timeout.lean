import Mushix.Hpet

/-!
# Timeouts

`TimeoutFuture` (`executor.rs`): a future that `sleep` awaits. It stores the time at which it
expires and compares it with the time of every poll.

* `TimeoutFuture.new`, `TimeoutFuture.poll`: the two methods;
* `TimeoutFuture.poll_eq_some_iff`: a poll is ready when more than the duration has passed;
* `timeout_keeps_time`: for every period of the timer and every sequence of counter values.
-/

namespace Mushix

/-- A `TimeoutFuture` is ready from a point in time on. -/
structure TimeoutFuture where
  timeOut : Duration

namespace TimeoutFuture

/-- `new`, when the main counter is read as `mainCounter`. -/
def new (hpet : Option Hpet) (mainCounter : BitVec 64) (duration : Duration) :
    Except Fault TimeoutFuture :=
  match (globalTimestamp hpet mainCounter).checkedAdd duration with
  | some timeOut => .ok { timeOut }
  | none => .error (.panic "overflow when adding durations")

/-- `poll`, when the main counter is read as `mainCounter`: `some ()` is `Ready(())` and `none` is
`Pending`. -/
def poll (self : TimeoutFuture) (hpet : Option Hpet) (mainCounter : BitVec 64) : Option Unit :=
  if self.timeOut < globalTimestamp hpet mainCounter then some () else none

variable {self : TimeoutFuture} {hpet : Hpet} {c c' : BitVec 64} {duration : Duration}

/-- A future whose end is a time that can be represented can be made. -/
theorem new_eq_ok (h : hpet.nanosAt c + duration.toNanos < 2 ^ 64 * 1000000000) :
    ∃ self, new (some hpet) c duration = .ok self ∧
      self.timeOut.toNanos = hpet.nanosAt c + duration.toNanos := by
  obtain ⟨timeOut, hsum, hnanos⟩ := Duration.toNanos_of_checkedAdd h
  refine ⟨{ timeOut }, ?_, hnanos⟩
  rw [new, hsum]

/-- A poll is ready when its time is later than the one at which the future expires. -/
theorem poll_eq_some_iff :
    self.poll (some hpet) c = some () ↔ self.timeOut.toNanos < hpet.nanosAt c := by
  rw [Hpet.nanosAt, ← Duration.lt_iff, poll]
  split <;> simp [*]

/-- A future that is ready stays ready. -/
theorem poll_mono (hle : c.toNat ≤ c'.toNat) (hfits : hpet.Fits c')
    (h : self.poll (some hpet) c = some ()) : self.poll (some hpet) c' = some () := by
  rw [poll_eq_some_iff] at h ⊢
  exact h.trans_le (Hpet.nanosAt_mono hle hfits)

end TimeoutFuture

/-- The time that the timer tells: it does not run backwards, and it is exact up to rounding down
and the loss of the rounded frequency. -/
structure Hpet.Exact (hpet : Hpet) (p : ℕ) : Prop where
  mono : ∀ c c' : BitVec 64, c.toNat ≤ c'.toNat → hpet.Fits c' → hpet.nanosAt c ≤ hpet.nanosAt c'
  lower : ∀ c, hpet.Fits c → c.toNat * p / 1000000 ≤ hpet.nanosAt c
  upper : ∀ c, hpet.Fits c →
    (hpet.nanosAt c : ℚ) ≤ (c.toNat * p / 1000000 : ℚ) * (hpet.freq + 1) / hpet.freq

/-- With every sequence of counter values that do not decrease, a timeout that is made at the first
of them and polled at the others is ready at the polls whose time is more than the duration later
than the first one, and at all polls behind a ready one. -/
def Hpet.TimesOut (hpet : Hpet) : Prop :=
  ∀ (reads : ℕ → BitVec 64) (duration : Duration),
    (∀ i j, i ≤ j → (reads i).toNat ≤ (reads j).toNat) → (∀ i, hpet.Fits (reads i)) →
    hpet.nanosAt (reads 0) + duration.toNanos < 2 ^ 64 * 1000000000 →
    ∃ future, TimeoutFuture.new (some hpet) (reads 0) duration = .ok future ∧
      ∀ i, (future.poll (some hpet) (reads (i + 1)) = some () ↔
          hpet.nanosAt (reads 0) + duration.toNanos < hpet.nanosAt (reads (i + 1))) ∧
        (future.poll (some hpet) (reads (i + 1)) = some () →
          ∀ j, i ≤ j → future.poll (some hpet) (reads (j + 1)) = some ())

/-- The sum of the time and a period does not overflow, so that every future is made. -/
theorem Hpet.timesOut (hpet : Hpet) : hpet.TimesOut := by
  intro reads duration hmono hfits hend
  obtain ⟨future, hnew, htimeOut⟩ := TimeoutFuture.new_eq_ok hend
  refine ⟨future, hnew, fun i => ⟨?_, fun hready j hij => ?_⟩⟩
  · rw [TimeoutFuture.poll_eq_some_iff, htimeOut]
  · exact TimeoutFuture.poll_mono (hmono _ _ (Nat.succ_le_succ hij)) (hfits _) hready

/-- For every period in the capability register, `Hpet::new` returns with a timer that tells the
time exactly up to rounding and by which timeouts end as they should. -/
theorem timeout_keeps_time (registers : HpetRegisters) (hp : 1 ≤ Hpet.fsPerCount registers) :
    ∃ hpet registers', Hpet.new registers = .ok hpet registers' ∧
      hpet.freq = 1000000000000000 / Hpet.fsPerCount registers ∧
      hpet.Exact (Hpet.fsPerCount registers) ∧ hpet.TimesOut := by
  obtain ⟨hpet, registers', hnew, hfreq⟩ := Hpet.new_returns (Nat.ne_of_gt hp)
  refine ⟨hpet, registers', hnew, hfreq, ?_, hpet.timesOut⟩
  exact
    { mono := fun c c' hle hfits => Hpet.nanosAt_mono hle hfits
      lower := fun c hfits => Hpet.le_nanosAt hfreq hfits
      upper := fun c hfits => Hpet.nanosAt_le hfreq hp hfits }

/-- Registers of a timer with three timers and 69841279 femtoseconds in a count. -/
def hpetRegisters : HpetRegisters where
  capabilitiesAndId := 0x0429b17f80868201
  configuration := 0
  mainCounterValue := 0
  timers := fun _ => { configurationAndCapability := 0 }

theorem timeout_keeps_time_hpetRegisters :
    ∃ hpet registers', Hpet.new hpetRegisters = .ok hpet registers' ∧
      hpet.freq = 1000000000000000 / Hpet.fsPerCount hpetRegisters ∧
      hpet.Exact (Hpet.fsPerCount hpetRegisters) ∧ hpet.TimesOut :=
  timeout_keeps_time hpetRegisters (by decide)

end Mushix
