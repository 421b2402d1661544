import Mushix.Lib.WriteToClear
import Mushix.Pci.Config

/-!
# The command and status register

How the program sets bits in the command register of a PCI function (`pci.rs`), which shares a
dword with the status register. The error bits of the status are cleared by writing 1.

* `Pci.setCommandAndStatusFlags`: the read-modify-write;
* `IsCommandStatus`: a register of that kind;
* `Pci.setsFlags_iff`: for which values of the register no status bit is lost.
-/

namespace Mushix

open BitField (lowMask store writeToClear)

namespace Pci

variable {σ : Type} (space : ConfigSpace σ) (self : Pci)

/-- `set_command_and_status_flags` sets bits of the command register, and writes the status register
back with it. -/
def setCommandAndStatusFlags (bdf : BusDeviceFunction) (flags : BitVec 32) : Method σ Unit := do
  let cmdAndStatus ← self.readRegisterU32 space bdf 0x04
  self.writeRegisterU32 space bdf 0x04 (cmdAndStatus ||| flags)

/-- `enable_bus_mastering` lets a function access memory by itself. -/
def enableBusMastering (bdf : BusDeviceFunction) : Method σ Unit :=
  self.setCommandAndStatusFlags space bdf (1#32 <<< 2)

/-- `disable_interrupt` turns off the legacy interrupt of a function. -/
def disableInterrupt (bdf : BusDeviceFunction) : Method σ Unit :=
  self.setCommandAndStatusFlags space bdf (1#32 <<< 10)

/-- Calls of `set_command_and_status_flags`, one after the other. -/
def setAllFlags (bdf : BusDeviceFunction) (calls : List (BitVec 32)) : Method σ Unit :=
  calls.forM (self.setCommandAndStatusFlags space bdf)

end Pci

/-- The command register, which is the low half of the dword. -/
def commandHalf : BitVec 32 := lowMask 32 16

/-- The bits of the status register that are cleared by writing 1. -/
def statusErrors : BitVec 32 := (1#32 <<< 24) ||| (0b11111#32 <<< 27)

/-- The dword at an address is a command and status register, whose other status bits are read
only. -/
structure IsCommandStatus {σ : Type} (space : ConfigSpace σ) (addr : ℕ) (reg : σ → BitVec 32) :
    Prop where
  addr_lt : addr < 2 ^ 64
  read (s : σ) : space.read 32 addr s = reg s
  write (data : BitVec 32) (s : σ) : reg (space.write 32 addr data s) =
    writeToClear (store (reg s) commandHalf data) statusErrors data

/-- All flags that the calls ask for. -/
def allFlags (calls : List (BitVec 32)) : BitVec 32 := calls.foldr (· ||| ·) 0

/-- The flags are set in the command register, and no status bit is cleared. -/
structure SetsFlags (calls : List (BitVec 32)) (before after : BitVec 32) : Prop where
  command : after &&& commandHalf = (before ||| allFlags calls) &&& commandHalf
  status : before &&& ~~~commandHalf &&& ~~~after = 0

/-- A read-modify-write of the register sets the flags and clears the errors. -/
theorem store_or_flags (x : BitVec 32) {flags : BitVec 32} (hflags : flags &&& ~~~commandHalf = 0) :
    writeToClear (store x commandHalf (x ||| flags)) statusErrors (x ||| flags) =
      (x ||| flags) &&& ~~~statusErrors := by
  have hstore : store x commandHalf (x ||| flags) = x ||| flags := by
    ext i hi
    have hbit := BitField.and_eq_zero_iff_getElem.1 hflags i hi
    rw [BitVec.getElem_not] at hbit
    simp only [store, BitVec.getElem_or, BitVec.getElem_and, BitVec.getElem_not]
    cases hhalf : commandHalf[i] <;> simp_all
  rw [hstore, BitField.writeToClear_self]

namespace Pci

variable {σ : Type} {space : ConfigSpace σ} {self : Pci} {bdf : BusDeviceFunction}
  {reg : σ → BitVec 32}

/-- What one call does to the register. -/
theorem setCommandAndStatusFlags_eq (h : IsCommandStatus space (self.baseOf bdf + 0x04) reg)
    {flags : BitVec 32} (hflags : flags &&& ~~~commandHalf = 0) (s : σ) :
    ∃ s', self.setCommandAndStatusFlags space bdf flags s = .ok () s' ∧
      reg s' = (reg s ||| flags) &&& ~~~statusErrors := by
  have hbase : self.baseOf bdf < 2 ^ 64 := (Nat.le_add_right _ _).trans_lt h.addr_lt
  have haccepts : ConfigRegisters.Accepts 32 0x04 := by decide
  have hread : self.readRegisterU32 space bdf 0x04 s = .ok (reg s) s := by
    rw [run_readRegisterU32 hbase haccepts, h.read]
  refine ⟨_, (Method.bind_of_ok hread).trans (run_writeRegisterU32 hbase haccepts _ s), ?_⟩
  rw [h.write, store_or_flags _ hflags]

/-- What a sequence of calls does to the register. -/
theorem setAllFlags_eq (h : IsCommandStatus space (self.baseOf bdf + 0x04) reg)
    {calls : List (BitVec 32)} (hcalls : ∀ flags ∈ calls, flags &&& ~~~commandHalf = 0) (s : σ) :
    ∃ s', self.setAllFlags space bdf calls s = .ok () s' ∧
      reg s' = if calls = [] then reg s else (reg s ||| allFlags calls) &&& ~~~statusErrors := by
  induction calls generalizing s with
  | nil => exact ⟨s, rfl, rfl⟩
  | cons flags calls ih =>
    obtain ⟨s₁, hrun, hreg⟩ := setCommandAndStatusFlags_eq h (hcalls flags List.mem_cons_self) s
    obtain ⟨s₂, hrest, hreg'⟩ := ih (fun f hf => hcalls f (List.mem_cons_of_mem flags hf)) s₁
    refine ⟨s₂, ?_, ?_⟩
    · exact (Method.bind_of_ok hrun).trans hrest
    · rw [hreg', hreg, if_neg (List.cons_ne_nil flags calls)]
      split_ifs with hnil
      · simp [hnil, allFlags]
      · ext i hi
        cases herror : statusErrors[i] <;> simp [herror, allFlags, Bool.or_assoc]

theorem getElem_commandHalf_of_statusErrors :
    ∀ (i : ℕ) (hi : i < 32), statusErrors[i] = true → commandHalf[i] = false := by
  decide

/-- Clearing the errors does not reach the command register. -/
theorem and_not_statusErrors_and_commandHalf (x : BitVec 32) :
    x &&& ~~~statusErrors &&& commandHalf = x &&& commandHalf := by
  ext i hi
  have hbit := getElem_commandHalf_of_statusErrors i hi
  cases herror : statusErrors[i] <;> simp_all

/-- The register after the calls is as it is to be exactly when none of its errors was set. -/
theorem setsFlags_and_not_iff (x : BitVec 32) (calls : List (BitVec 32)) :
    SetsFlags calls x ((x ||| allFlags calls) &&& ~~~statusErrors) ↔ x &&& statusErrors = 0 := by
  rw [BitField.and_eq_zero_iff_getElem]
  constructor
  · intro h i hi herror
    have hbit := congrArg (BitVec.getLsbD · i) h.status
    simpa [hi, herror, getElem_commandHalf_of_statusErrors i hi herror] using hbit
  · intro h
    refine ⟨and_not_statusErrors_and_commandHalf _, ?_⟩
    ext i hi
    have hbit := h i hi
    cases herror : statusErrors[i] <;> cases hx : x[i] <;> simp_all

/-- Calls of `set_command_and_status_flags` always set their flags in the command register. They
clear no status bit exactly when no error was set before the first of them. -/
theorem setsFlags_iff (h : IsCommandStatus space (self.baseOf bdf + 0x04) reg)
    {calls : List (BitVec 32)} (hcalls : ∀ flags ∈ calls, flags &&& ~~~commandHalf = 0) (s : σ) :
    ∃ s', self.setAllFlags space bdf calls s = .ok () s' ∧
      reg s' &&& commandHalf = (reg s ||| allFlags calls) &&& commandHalf ∧
        (SetsFlags calls (reg s) (reg s') ↔ calls = [] ∨ reg s &&& statusErrors = 0) := by
  obtain ⟨s', hrun, hreg⟩ := setAllFlags_eq h hcalls s
  refine ⟨s', hrun, ?_⟩
  split_ifs at hreg with hnil
  · subst hnil
    have hnone : SetsFlags [] (reg s) (reg s) := by
      refine ⟨by simp [allFlags], ?_⟩
      ext i hi
      cases hbit : (reg s)[i] <;> simp [hbit]
    rw [hreg]
    exact ⟨hnone.command, iff_of_true hnone (.inl rfl)⟩
  · rw [hreg, setsFlags_and_not_iff, or_iff_right hnil]
    exact ⟨and_not_statusErrors_and_commandHalf _, Iff.rfl⟩

/-! ## A device -/

/-- A configuration space that is one command and status register. -/
def commandStatus : ConfigSpace (BitVec 32) where
  read w _ reg := reg.setWidth w
  write _ _ data reg :=
    writeToClear (store reg commandHalf (data.setWidth 32)) statusErrors (data.setWidth 32)

theorem isCommandStatus_commandStatus :
    IsCommandStatus commandStatus (atZero.baseOf ⟨0⟩ + 0x04) id where
  addr_lt := by decide
  read s := by simp [commandStatus]
  write data s := by simp [commandStatus]

/-- The first two steps of `attach` for a function. -/
theorem setAllFlags_attach (space : ConfigSpace σ) (self : Pci) (bdf : BusDeviceFunction) :
    self.setAllFlags space bdf [1#32 <<< 10, 1#32 <<< 2] = (do
      self.disableInterrupt space bdf
      self.enableBusMastering space bdf) := by
  simp [setAllFlags, disableInterrupt, enableBusMastering]

/-- What the drivers set lies in the command half. -/
theorem attach_flags : ∀ flags ∈ [1#32 <<< 10, 1#32 <<< 2], flags &&& ~~~commandHalf = 0 := by
  intro flags hflags
  rcases List.mem_pair.1 hflags with rfl | rfl
  · decide
  · decide

/-- The two calls of `attach` for a function with no error. -/
theorem setsFlags_iff_attach :
    ∃ s', atZero.setAllFlags commandStatus ⟨0⟩ [1#32 <<< 10, 1#32 <<< 2] 0x00100003 = .ok () s' ∧
      id s' &&& commandHalf =
        (id 0x00100003 ||| allFlags [1#32 <<< 10, 1#32 <<< 2]) &&& commandHalf ∧
        (SetsFlags [1#32 <<< 10, 1#32 <<< 2] (id 0x00100003) (id s') ↔
          [1#32 <<< 10, 1#32 <<< 2] = [] ∨ id 0x00100003 &&& statusErrors = 0) :=
  setsFlags_iff isCommandStatus_commandStatus attach_flags 0x00100003

/-- Nothing is left of a master abort that was reported before. -/
theorem not_setsFlags_masterAbort :
    ∃ s', atZero.setAllFlags commandStatus ⟨0⟩ [1#32 <<< 10, 1#32 <<< 2] 0x20100003 = .ok () s' ∧
      s' = 0x00100407 ∧ ¬SetsFlags [1#32 <<< 10, 1#32 <<< 2] 0x20100003 s' := by
  obtain ⟨s', hrun, hreg⟩ := setAllFlags_eq isCommandStatus_commandStatus attach_flags 0x20100003
  have hvalue : s' = 0x00100407 := hreg.trans (by decide)
  refine ⟨s', hrun, hvalue, fun h => ?_⟩
  have hstatus := h.status
  rw [hvalue] at hstatus
  exact absurd hstatus (by decide)

end Pci

end Mushix
