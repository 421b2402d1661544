import Mathlib.Data.List.Range
import Mushix.Bits
import Mushix.Result

/-!
# The registers of the controller

Where the registers of an xHCI controller are (`xhci.rs`), which its capability registers say.

* `CapabilityRegisters`: the capability registers, which never change;
* `setupXhcRegisters`: the places of all other registers.
-/

namespace Mushix

/-- The fields of `CapabilityRegisters` that the program reads. -/
structure CapabilityRegisters where
  caplengthReg : BitVec 8
  hcsparams1 : BitVec 32
  hcsparams2 : BitVec 32
  dboffReg : BitVec 32
  rtsoffReg : BitVec 32

namespace CapabilityRegisters

/-- The length of the capability registers, behind which are the operational registers. -/
def caplength (self : CapabilityRegisters) : ℕ := self.caplengthReg.toNat

/-- The offset of the runtime registers. -/
def rtsoff (self : CapabilityRegisters) : ℕ := self.rtsoffReg.toNat

/-- The offset of the doorbells. -/
def dboff (self : CapabilityRegisters) : ℕ := self.dboffReg.toNat

/-- The number of device slots, bits 0 to 7 of HCSPARAMS1. -/
def numOfDeviceSlots (self : CapabilityRegisters) : ℕ := (extractBits self.hcsparams1 0 8).toNat

/-- The number of scratchpad buffers, in two fields of HCSPARAMS2. -/
def numScratchpadBufs (self : CapabilityRegisters) : ℕ :=
  (extractBits self.hcsparams2 21 5 <<< 5 ||| extractBits self.hcsparams2 27 5).toNat

/-- The number of ports, bits 24 to 31 of HCSPARAMS1. -/
def numOfPorts (self : CapabilityRegisters) : ℕ := (extractBits self.hcsparams1 24 8).toNat

end CapabilityRegisters

/-- `PortSc::new`: the addresses of the PORTSC registers. -/
def PortSc.new (bar0 : ℕ) (capRegs : CapabilityRegisters) : Except Fault (List ℕ) :=
  let base := bar0 + capRegs.caplength + 0x400
  let numPorts := capRegs.numOfPorts
  let entries := (List.range' 1 numPorts).map fun port => base + 4 * ((port - 1) * 4)
  if entries.length = numPorts then
    .ok entries
  else
    .error (.panic "assertion failed: entries.len() == num_ports")

/-- `XhcRegisters`: the addresses of the registers. A `Doorbell` and a `PortScEntry` are the
addresses that they hold. -/
structure XhcRegisters where
  capRegs : CapabilityRegisters
  opRegs : ℕ
  rtRegs : ℕ
  doorbellRegs : List ℕ
  portsc : List ℕ

/-- `setup_xhc_registers` finds the registers in the memory behind BAR0. -/
def setupXhcRegisters (bar0 : ℕ) (capRegs : CapabilityRegisters) : Except Fault XhcRegisters := do
  let opRegs := bar0 + capRegs.caplength
  let rtRegs := bar0 + capRegs.rtsoff
  let portsc ← PortSc.new bar0 capRegs
  -- the number of ports stands for the number of slots
  let numSlots := capRegs.numOfPorts
  let doorbellRegs := (List.range (numSlots + 1)).map fun i => bar0 + capRegs.dboff + 4 * i
  if doorbellRegs.length = 1 + numSlots then
    return { capRegs, opRegs, rtRegs, doorbellRegs, portsc }
  else
    throw (.panic "assertion failed: doorbell_regs.len() == 1 + num_slots")

/-- There is a PORTSC register for every port. -/
theorem PortSc.new_eq (bar0 : ℕ) (capRegs : CapabilityRegisters) :
    PortSc.new bar0 capRegs = .ok ((List.range' 1 capRegs.numOfPorts).map fun port =>
      bar0 + capRegs.caplength + 0x400 + 4 * ((port - 1) * 4)) :=
  if_pos (by rw [List.length_map, List.length_range'])

/-- The places of the registers of a controller, where the lists have their lengths. -/
def XhcRegisters.placed (bar0 : ℕ) (capRegs : CapabilityRegisters) : XhcRegisters where
  capRegs := capRegs
  opRegs := bar0 + capRegs.caplength
  rtRegs := bar0 + capRegs.rtsoff
  doorbellRegs := (List.range (capRegs.numOfPorts + 1)).map fun i => bar0 + capRegs.dboff + 4 * i
  portsc := (List.range' 1 capRegs.numOfPorts).map fun port =>
    bar0 + capRegs.caplength + 0x400 + 4 * ((port - 1) * 4)

/-- The assertions about the lengths of the lists hold. -/
theorem setupXhcRegisters_eq (bar0 : ℕ) (capRegs : CapabilityRegisters) :
    setupXhcRegisters bar0 capRegs = .ok (.placed bar0 capRegs) := by
  have hlength : ((List.range (capRegs.numOfPorts + 1)).map fun i =>
      bar0 + capRegs.dboff + 4 * i).length = 1 + capRegs.numOfPorts := by
    rw [List.length_map, List.length_range, Nat.add_comm]
  rw [setupXhcRegisters, PortSc.new_eq]
  simp only [bind, Except.bind, hlength, if_true]
  rfl

/-- There is a doorbell for every port, and one for the commands. -/
theorem XhcRegisters.doorbellRegs_placed (bar0 : ℕ) (capRegs : CapabilityRegisters) (i : ℕ) :
    (placed bar0 capRegs).doorbellRegs[i]? =
      if i ≤ capRegs.numOfPorts then some (bar0 + capRegs.dboff + 4 * i) else none := by
  rw [placed, List.getElem?_map]
  split_ifs with hi
  · rw [List.getElem?_range (by omega)]
    rfl
  · rw [List.getElem?_eq_none (by rw [List.length_range]; omega)]
    rfl

end Mushix
