import Mushix.Usize

/-!
# The configuration space of PCI

How the program reads and writes the registers of PCI functions (`pci.rs`). What is behind the
addresses is a parameter, a `ConfigSpace`: plain memory, or the registers of a device.

* `BusDeviceFunction`, `Pci.ecmBase`: functions and where their registers are;
* `ConfigRegisters.read`, `ConfigRegisters.write`: one access with its check;
* `Pci.readRegisterU64`, `Pci.writeRegisterU64`: two accesses for one integer.
-/

namespace Mushix

/-- What volatile accesses to the configuration space do. A read has no effect. -/
structure ConfigSpace (σ : Type) where
  /-- A read of an integer of `w` bits. -/
  read : (w addr : ℕ) → σ → BitVec w
  /-- A store of an integer of `w` bits. -/
  write : (w addr : ℕ) → BitVec w → σ → σ

/-- A function of a device on a bus, as 16 bits. -/
structure BusDeviceFunction where
  id : BitVec 16
  deriving DecidableEq, Repr

namespace ConfigRegisters

variable {σ : Type} (space : ConfigSpace σ) {w : ℕ}

/-- Whether an access of `w` bits is aligned and below 256. -/
def Accepts (w byteOffset : ℕ) : Prop := byteOffset < 256 ∧ byteOffset % (w / 8) = 0

instance (w byteOffset : ℕ) : Decidable (Accepts w byteOffset) :=
  inferInstanceAs (Decidable (_ ∧ _))

/-- The place of `ecm_base.add(byte_offset / size_of::<T>())`. -/
def place (w ecmBase byteOffset : ℕ) : ℕ := ecmBase + w / 8 * (byteOffset / (w / 8))

/-- A read of a register of `w` bits, which fails beyond the 256 bytes and panics where it is
misaligned. -/
def read (w ecmBase byteOffset : ℕ) : Method σ (BitVec w) := fun s =>
  if Accepts w byteOffset then
    .ok (space.read w (place w ecmBase byteOffset) s) s
  else
    .error (.err "PCI config register read out of range") s

/-- A write of a register of `w` bits, with the checks of a read. -/
def write (ecmBase byteOffset : ℕ) (data : BitVec w) : Method σ Unit := fun s =>
  if Accepts w byteOffset then
    .ok () (space.write w (place w ecmBase byteOffset) data s)
  else
    .error (.err "PCI config register write out of range") s

/-- An accepted offset is where the access goes. -/
theorem place_eq {ecmBase byteOffset : ℕ} (h : Accepts w byteOffset) :
    place w ecmBase byteOffset = ecmBase + byteOffset := by
  rw [place, Nat.mul_div_cancel' (Nat.dvd_of_mod_eq_zero h.2)]

/-- A read that is accepted returns what is there. -/
theorem read_of_accepts {ecmBase byteOffset : ℕ} (h : Accepts w byteOffset) (s : σ) :
    read space w ecmBase byteOffset s = .ok (space.read w (ecmBase + byteOffset) s) s := by
  rw [read, if_pos h, place_eq h]

/-- A write that is accepted stores its data. -/
theorem write_of_accepts {ecmBase byteOffset : ℕ} (h : Accepts w byteOffset) (data : BitVec w)
    (s : σ) :
    write space ecmBase byteOffset data s =
      .ok () (space.write w (ecmBase + byteOffset) data s) := by
  rw [write, if_pos h, place_eq h]

end ConfigRegisters

/-- `Pci`: the range of the addresses of the configuration space. -/
structure Pci where
  ecmStart : ℕ
  ecmEnd : ℕ
  deriving DecidableEq, Repr

namespace Pci

variable {σ : Type} (space : ConfigSpace σ) (self : Pci)

/-- Where the configuration space of a function begins. -/
def ecmBase (id : BusDeviceFunction) : Method σ ℕ :=
  Usize.add self.ecmStart (id.id.toNat <<< 12)

/-- A read of 16 bits from the configuration space of a function. -/
def readRegisterU16 (bdf : BusDeviceFunction) (byteOffset : ℕ) : Method σ (BitVec 16) := do
  ConfigRegisters.read space 16 (← self.ecmBase bdf) byteOffset

/-- A read of 32 bits from the configuration space of a function. -/
def readRegisterU32 (bdf : BusDeviceFunction) (byteOffset : ℕ) : Method σ (BitVec 32) := do
  ConfigRegisters.read space 32 (← self.ecmBase bdf) byteOffset

/-- A write of 32 bits into the configuration space of a function. -/
def writeRegisterU32 (bdf : BusDeviceFunction) (byteOffset : ℕ) (data : BitVec 32) :
    Method σ Unit := do
  ConfigRegisters.write space (← self.ecmBase bdf) byteOffset data

/-- A read of 64 bits, the low half first. -/
def readRegisterU64 (bdf : BusDeviceFunction) (byteOffset : ℕ) : Method σ (BitVec 64) := do
  -- two accesses, the low dword first
  let lo ← self.readRegisterU32 space bdf byteOffset
  let hi ← self.readRegisterU32 space bdf (byteOffset + 4)
  return hi.setWidth 64 <<< 32 ||| lo.setWidth 64

/-- A write of 64 bits, the low half first. -/
def writeRegisterU64 (bdf : BusDeviceFunction) (byteOffset : ℕ) (data : BitVec 64) :
    Method σ Unit := do
  let lo : BitVec 32 := data.setWidth 32
  let hi : BitVec 32 := (data >>> 32).setWidth 32
  self.writeRegisterU32 space bdf byteOffset lo
  self.writeRegisterU32 space bdf (byteOffset + 4) hi

/-- A configuration space at address 0. -/
def atZero : Pci := { ecmStart := 0, ecmEnd := 1 <<< 24 }

/-- The address of the registers of a function. -/
def baseOf (bdf : BusDeviceFunction) : ℕ := self.ecmStart + bdf.id.toNat <<< 12

section Accesses

variable {space} {self} {bdf : BusDeviceFunction} {byteOffset : ℕ}
  (hbase : self.baseOf bdf < 2 ^ 64)

include hbase

/-- A 32-bit read, where the range accepts it. -/
theorem run_readRegisterU32 (h : ConfigRegisters.Accepts 32 byteOffset) (s : σ) :
    self.readRegisterU32 space bdf byteOffset s =
      .ok (space.read 32 (self.baseOf bdf + byteOffset) s) s := by
  rw [readRegisterU32, ecmBase, Usize.add_bind hbase, ConfigRegisters.read_of_accepts space h]
  rfl

/-- A 32-bit write, where the range accepts it. -/
theorem run_writeRegisterU32 (h : ConfigRegisters.Accepts 32 byteOffset) (data : BitVec 32)
    (s : σ) :
    self.writeRegisterU32 space bdf byteOffset data s =
      .ok () (space.write 32 (self.baseOf bdf + byteOffset) data s) := by
  rw [writeRegisterU32, ecmBase, Usize.add_bind hbase,
    ConfigRegisters.write_of_accepts space h]
  rfl

theorem run_readRegisterU64 (h : ConfigRegisters.Accepts 32 byteOffset)
    (h' : ConfigRegisters.Accepts 32 (byteOffset + 4)) (s : σ) :
    self.readRegisterU64 space bdf byteOffset s =
      .ok ((space.read 32 (self.baseOf bdf + (byteOffset + 4)) s).setWidth 64 <<< 32 |||
        (space.read 32 (self.baseOf bdf + byteOffset) s).setWidth 64) s := by
  rw [readRegisterU64, Method.bind_of_ok (run_readRegisterU32 hbase h s),
    Method.bind_of_ok (run_readRegisterU32 hbase h' s)]
  rfl

/-- A 64-bit write is one of the lower and then the upper half. -/
theorem run_writeRegisterU64 (h : ConfigRegisters.Accepts 32 byteOffset)
    (h' : ConfigRegisters.Accepts 32 (byteOffset + 4)) (data : BitVec 64) (s : σ) :
    self.writeRegisterU64 space bdf byteOffset data s =
      .ok () (space.write 32 (self.baseOf bdf + (byteOffset + 4)) ((data >>> 32).setWidth 32)
        (space.write 32 (self.baseOf bdf + byteOffset) (data.setWidth 32) s)) := by
  rw [writeRegisterU64, Method.bind_of_ok (run_writeRegisterU32 hbase h _ s),
    run_writeRegisterU32 hbase h']

end Accesses

end Pci

end Mushix
