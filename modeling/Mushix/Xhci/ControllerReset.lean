import Mushix.Loop
import Mushix.Xhci.Polling

/-!
# The reset of the controller

How the program resets the controller before it uses it (`xhci.rs`), and for which controllers the
reset is over when the program goes on.

* `OperationalRegisters.resetXhc`: the reset, which waits for the controller twice;
* `OperationalRegisters.ResetCompletes`: HCRST reads 0 whenever it returns;
* `OperationalRegisters.resetXhc_completes_iff`: for which controllers this holds.
-/

namespace Mushix.OperationalRegisters

/-- The offset of `usbcmd` in `OperationalRegisters`. -/
def usbcmdOffset : ℕ := 0

/-- HCHalted, which is 1 in USBSTS when the controller has stopped. -/
def statusHcHalted : BitVec 32 := 0b0001

/-- RUN, which is 1 in USBCMD while the controller is to work. -/
def cmdRunStop : BitVec 32 := 0b0001

/-- HCRST, which is 1 in USBCMD during a reset. -/
def cmdHcReset : BitVec 32 := 0b0010

variable {σ : Type} (w : World σ) (opRegs : ℕ)

/-- `read()` of the register at an offset. -/
def read (offset : ℕ) : Method σ (BitVec 32) := fun hw =>
  let (value, hw) := w.read (opRegs + offset) hw
  .ok value hw

/-- `write()` of the register at an offset. -/
def write (offset : ℕ) (value : BitVec 32) : Method σ Unit :=
  modify (w.write (opRegs + offset) value)

/-- `set_command_bits` reads USBCMD and writes it back with more bits. -/
def setCommandBits (bits : BitVec 32) : Method σ Unit := do
  write w opRegs usbcmdOffset ((← read w opRegs usbcmdOffset) ||| bits)

/-- `clear_command_bits` reads USBCMD and writes it back without some bits. -/
def clearCommandBits (bits : BitVec 32) : Method σ Unit := do
  write w opRegs usbcmdOffset ((← read w opRegs usbcmdOffset) &&& ~~~bits)

/-- Whether USBSTS has no bit of the mask. -/
def pollZero (mask : BitVec 32) : Method σ Bool := do
  return (← read w opRegs Driver.usbstsOffset) &&& mask == 0

/-- Whether USBSTS has a bit of the mask. -/
def pollSet (mask : BitVec 32) : Method σ Bool := do
  return (← read w opRegs Driver.usbstsOffset) &&& mask != 0

/-- `reset_xhc`, whose loops go on for a number of rounds: whether it has returned. -/
def resetXhc (rounds : ℕ) : Method σ Bool := do
  clearCommandBits w opRegs cmdRunStop
  if ← Method.whileTrue (pollZero w opRegs statusHcHalted) rounds then
    setCommandBits w opRegs cmdHcReset
    -- the bit of USBCMD is looked for in USBSTS
    Method.whileTrue (pollSet w opRegs cmdHcReset) rounds
  else
    return false

/-- HCRST reads 0. -/
def ResetDone (hw : σ) : Prop := (w.read (opRegs + usbcmdOffset) hw).1 &&& cmdHcReset = 0

instance (hw : σ) : Decidable (ResetDone w opRegs hw) := inferInstanceAs (Decidable (_ = _))

/-- Whenever the reset returns, it has completed. -/
def ResetCompletes (hw : σ) : Prop :=
  ∀ rounds hw', resetXhc w opRegs rounds hw = .ok true hw' → ResetDone w opRegs hw'

/-! ## Hardware that is reset -/

/-- The hardware after USBCMD was read and written back with a change. -/
def commanded (f : BitVec 32 → BitVec 32) (hw : σ) : σ :=
  let (value, hw) := w.read (opRegs + usbcmdOffset) hw
  w.write (opRegs + usbcmdOffset) (f value) hw

/-- The hardware after RUN was cleared. -/
def stopped (hw : σ) : σ := commanded w opRegs (· &&& ~~~cmdRunStop) hw

/-- The hardware after HCRST was written, `halt` reads after RUN was cleared and one more. -/
def resetting (halt : ℕ) (hw : σ) : σ :=
  commanded w opRegs (· ||| cmdHcReset)
    (w.afterReads (opRegs + Driver.usbstsOffset) (halt + 1) (stopped w opRegs hw))

/-- The first read of USBSTS in which HCHalted is 1 comes after `n` reads. -/
def HaltsAt (n : ℕ) (hw : σ) : Prop :=
  Method.EndsAfter (fun hw => (w.read (opRegs + Driver.usbstsOffset) hw).1 &&& statusHcHalted == 0)
    (fun hw => (w.read (opRegs + Driver.usbstsOffset) hw).2) n hw

/-- The first read of USBSTS in which bit 1 is 0 comes after `n` reads. -/
def ZeroAt (n : ℕ) (hw : σ) : Prop :=
  Method.EndsAfter (fun hw => (w.read (opRegs + Driver.usbstsOffset) hw).1 &&& cmdHcReset != 0)
    (fun hw => (w.read (opRegs + Driver.usbstsOffset) hw).2) n hw

/-- When bit 1 of USBSTS reads 0 for the first time after HCRST was written, HCRST has cleared. -/
def ClearedAtFirstZero (hw : σ) : Prop :=
  ∀ halt n, HaltsAt w opRegs halt (stopped w opRegs hw) →
    ZeroAt w opRegs n (resetting w opRegs halt hw) →
      ResetDone w opRegs
        (w.afterReads (opRegs + Driver.usbstsOffset) (n + 1) (resetting w opRegs halt hw))

section Loops

variable {w opRegs} {hw hw' : σ} {rounds : ℕ}

/-- The first loop ends with the first read in which HCHalted is 1. -/
theorem whileTrue_pollZero_iff :
    Method.whileTrue (pollZero w opRegs statusHcHalted) rounds hw = .ok true hw' ↔
      ∃ n < rounds, HaltsAt w opRegs n hw ∧
        hw' = w.afterReads (opRegs + Driver.usbstsOffset) (n + 1) hw :=
  Method.whileTrue_eq_ok_true_iff fun _ => rfl

/-- The second loop ends with the first read in which bit 1 is 0. -/
theorem whileTrue_pollSet_iff :
    Method.whileTrue (pollSet w opRegs cmdHcReset) rounds hw = .ok true hw' ↔
      ∃ n < rounds, ZeroAt w opRegs n hw ∧
        hw' = w.afterReads (opRegs + Driver.usbstsOffset) (n + 1) hw :=
  Method.whileTrue_eq_ok_true_iff fun _ => rfl

/-- The reset returns when HCHalted has been read as 1 after RUN was cleared, and bit 1 of USBSTS as
0 after HCRST was written. -/
theorem resetXhc_eq_ok_true_iff :
    resetXhc w opRegs rounds hw = .ok true hw' ↔
      ∃ halt < rounds, HaltsAt w opRegs halt (stopped w opRegs hw) ∧
        ∃ n < rounds, ZeroAt w opRegs n (resetting w opRegs halt hw) ∧
          hw' = w.afterReads (opRegs + Driver.usbstsOffset) (n + 1)
            (resetting w opRegs halt hw) := by
  have hclear : clearCommandBits w opRegs cmdRunStop hw = .ok () (stopped w opRegs hw) := rfl
  have hset : ∀ hw, setCommandBits w opRegs cmdHcReset hw =
      .ok () (commanded w opRegs (· ||| cmdHcReset) hw) := fun _ => rfl
  rw [resetXhc, Method.bind_of_ok hclear, Method.bind_eq_ok]
  constructor
  · rintro ⟨halted, hw₁, hhalt, h⟩
    cases halted with
    | false => cases h
    | true =>
      obtain ⟨halt, hlt, hfirst, rfl⟩ := whileTrue_pollZero_iff.1 hhalt
      rw [if_pos rfl, Method.bind_of_ok (hset _)] at h
      exact ⟨halt, hlt, hfirst, whileTrue_pollSet_iff.1 h⟩
  · rintro ⟨halt, hlt, hfirst, hzero⟩
    refine ⟨true, _, whileTrue_pollZero_iff.2 ⟨halt, hlt, hfirst, rfl⟩, ?_⟩
    rw [if_pos rfl, Method.bind_of_ok (hset _)]
    exact whileTrue_pollSet_iff.2 hzero

end Loops

/-- The reset has completed whenever it returns exactly for controllers that have cleared HCRST by
the time bit 1 of USBSTS reads 0, whatever they have to do with each other. -/
theorem resetCompletes_iff_clearedAtFirstZero (hw : σ) :
    ResetCompletes w opRegs hw ↔ ClearedAtFirstZero w opRegs hw := by
  constructor
  · intro h halt n hhalt hzero
    apply h (max halt n + 1)
    exact resetXhc_eq_ok_true_iff.2 ⟨halt, by omega, hhalt, n, by omega, hzero, rfl⟩
  · intro h rounds hw' hreset
    obtain ⟨halt, -, hhalt, n, -, hzero, rfl⟩ := resetXhc_eq_ok_true_iff.1 hreset
    exact h halt n hhalt hzero

/-! ## Controllers that take their time -/

/-- Bit 1 of USBSTS is reserved: it always reads 0. -/
def Reserved : Prop :=
  ∀ hw, (w.read (opRegs + Driver.usbstsOffset) hw).1 &&& cmdHcReset = 0

/-- HCRST reads 1 for `k` reads of USBSTS. -/
def ResetsAfter (k : ℕ) (hw : σ) : Prop :=
  ∀ n, ResetDone w opRegs (w.afterReads (opRegs + Driver.usbstsOffset) n hw) ↔ k ≤ n

/-- Where bit 1 of USBSTS is reserved, the second loop is over after one read. -/
theorem clearedAtFirstZero_iff_of_reserved {hw : σ} {halt k : ℕ} (hzero : Reserved w opRegs)
    (hhalt : HaltsAt w opRegs halt (stopped w opRegs hw))
    (hreset : ResetsAfter w opRegs k (resetting w opRegs halt hw)) :
    ClearedAtFirstZero w opRegs hw ↔ k ≤ 1 := by
  have hfirst : ∀ hw, ZeroAt w opRegs 0 hw := fun hw =>
    Method.endsAfter_zero.2 (by simp [hzero hw])
  rw [← hreset 1]
  constructor
  · intro h
    exact h halt 0 hhalt (hfirst _)
  · intro h halt' n hhalt' hzero'
    rw [Method.EndsAfter.unique hhalt' hhalt, Method.EndsAfter.unique hzero' (hfirst _)]
    exact h

/-- The reset has completed whenever it returns exactly for controllers that have cleared HCRST by
the time bit 1 of USBSTS reads 0. Where this bit is reserved, and the controller halts, HCRST may
read 1 for one read only. -/
theorem resetXhc_completes_iff (hw : σ) :
    (ResetCompletes w opRegs hw ↔ ClearedAtFirstZero w opRegs hw) ∧
      ∀ halt k, Reserved w opRegs → HaltsAt w opRegs halt (stopped w opRegs hw) →
        ResetsAfter w opRegs k (resetting w opRegs halt hw) →
          (ResetCompletes w opRegs hw ↔ k ≤ 1) := by
  have hiff := resetCompletes_iff_clearedAtFirstZero w opRegs hw
  refine ⟨hiff, fun halt k hzero hhalt hreset => ?_⟩
  rw [hiff]
  exact clearedAtFirstZero_iff_of_reserved w opRegs hzero hhalt hreset

end Mushix.OperationalRegisters

namespace Mushix

/-- A controller that halts at once, and for which HCRST reads 1 for two reads. The hardware is
USBCMD without HCRST, and the number of these reads that are left. -/
def World.slowReset : World (BitVec 32 × ℕ) where
  read addr hw :=
    if addr = OperationalRegisters.usbcmdOffset then
      (if 0 < hw.2 then hw.1 ||| OperationalRegisters.cmdHcReset else hw.1, (hw.1, hw.2 - 1))
    else
      (OperationalRegisters.statusHcHalted, (hw.1, hw.2 - 1))
  write _ value hw :=
    (value &&& ~~~OperationalRegisters.cmdHcReset,
      if value &&& OperationalRegisters.cmdHcReset = 0 then hw.2 else 2)
  event hw := ((.default, []), hw)
  page := (World.steady 0 .default).page
  buffer := (World.steady 0 .default).buffer

namespace OperationalRegisters

theorem haltsAt_slowReset : HaltsAt .slowReset 0 0 (stopped .slowReset 0 (1, 0)) :=
  Method.endsAfter_zero.2 (by decide)

theorem resetsAfter_slowReset :
    ResetsAfter .slowReset 0 2 (resetting .slowReset 0 0 (1, 0)) := by
  have hreads : ∀ n, World.slowReset.afterReads Driver.usbstsOffset n (0, 2) = (0, 2 - n) := by
    intro n
    induction n with
    | zero => rfl
    | succ n ih =>
      rw [← World.read_afterReads, ih]
      rfl
  intro n
  rw [show resetting .slowReset 0 0 (1, 0) = (0, 2) by decide, Nat.zero_add, hreads]
  match n with
  | 0 => decide
  | 1 => decide
  | n + 2 =>
    rw [show 2 - (n + 2) = 0 by omega]
    exact iff_of_true rfl (Nat.le_add_left 2 n)

theorem reserved_slowReset : Reserved .slowReset 0 := by
  intro hw
  show statusHcHalted &&& cmdHcReset = 0
  decide

theorem resetXhc_completes_iff_slowReset : ResetCompletes .slowReset 0 (1, 0) ↔ 2 ≤ 1 :=
  (resetXhc_completes_iff .slowReset 0 (1, 0)).2 0 2 reserved_slowReset haltsAt_slowReset
    resetsAfter_slowReset

/-- The reset returns after one read of USBSTS, when HCRST is still 1. -/
theorem not_resetCompletes_slowReset :
    HaltsAt .slowReset 0 0 (stopped .slowReset 0 (1, 0)) ∧
      ResetsAfter .slowReset 0 2 (resetting .slowReset 0 0 (1, 0)) ∧
        ¬ResetCompletes .slowReset 0 (1, 0) := by
  refine ⟨haltsAt_slowReset, resetsAfter_slowReset, fun h => ?_⟩
  rw [resetCompletes_iff_clearedAtFirstZero, clearedAtFirstZero_iff_of_reserved .slowReset 0
    reserved_slowReset haltsAt_slowReset resetsAfter_slowReset] at h
  exact absurd h (by decide)

end OperationalRegisters

end Mushix
