import Mushix.Lib.Bytes
import Mushix.Pci.Bar0

/-!
# Configuration space as memory

What a 64-bit write (`pci.rs`) does where the configuration space is plain memory.

* `ConfigSpace.memory`: such a configuration space;
* `Pci.WritesWhole`: all of the integer is written or nothing;
* `Pci.writesWhole_iff`: for which offsets this is so.
-/

namespace Mushix

open Bytes (Memory readLE writeLE)

/-- Plain memory. -/
def ConfigSpace.memory : ConfigSpace Memory where
  read w addr m := BitVec.ofNat w (readLE m addr (w / 8))
  write w addr data m := writeLE m addr (w / 8) data.toNat

namespace ConfigSpace

variable {m : Memory} {addr a : ℕ} {data : BitVec 32}

/-- What was written is read back. -/
theorem read_write_memory (m : Memory) (addr : ℕ) (data : BitVec 32) :
    memory.read 32 addr (memory.write 32 addr data m) = data := by
  apply BitVec.eq_of_toNat_eq
  rw [memory, BitVec.toNat_ofNat, Bytes.readLE_writeLE _ _ _ data.isLt, Nat.mod_eq_of_lt data.isLt]

/-- A write to another dword does not change what is read. -/
theorem read_write_memory_of_disjoint (h : a + 4 ≤ addr ∨ addr + 4 ≤ a) :
    memory.read 32 addr (memory.write 32 a data m) = memory.read 32 addr m := by
  simp only [memory]
  rw [Bytes.readLE_writeLE_of_disjoint h]

/-- A write changes no byte outside of its own. -/
theorem write_memory_of_not_mem {x : ℕ} (h : x < addr ∨ addr + 4 ≤ x) :
    memory.write 32 addr data m x = m x :=
  Bytes.writeLE_of_not_mem h

/-- A write changes nothing exactly when it writes what is there. -/
theorem write_memory_eq_iff :
    (∀ x, addr ≤ x → x < addr + 4 → memory.write 32 addr data m x = m x) ↔
      memory.read 32 addr m = data := by
  constructor
  · intro h
    rw [← read_write_memory m addr data]
    exact congrArg (BitVec.ofNat 32) (Bytes.readLE_congr h).symm
  · rintro rfl x - -
    have hlt : readLE m addr 4 < 2 ^ 32 := Bytes.readLE_lt m addr 4
    simp only [memory, BitVec.toNat_ofNat]
    rw [Nat.mod_eq_of_lt hlt, Bytes.writeLE_readLE]

end ConfigSpace

namespace Pci

variable {self : Pci} {bdf f g : BusDeviceFunction} {byteOffset o x : ℕ} {data : BitVec 64}
  {m : Memory}

/-- Functions have their 4 KiB for themselves. -/
theorem baseOf_add_inj (ho : o < 4096) (hx : x < 4096) (h : self.baseOf f + o = self.baseOf g + x) :
    f = g ∧ o = x := by
  simp only [baseOf, Nat.shiftLeft_eq] at h
  have hid : f.id.toNat = g.id.toNat := by omega
  have hf : f = g := by
    cases f
    cases g
    simpa using BitVec.eq_of_toNat_eq hid
  exact ⟨hf, by omega⟩

/-- A write of a `u64` writes all of it and no other byte of any function, or it returns `Err` and
writes nothing. -/
inductive WritesWhole (self : Pci) (bdf : BusDeviceFunction) (byteOffset : ℕ) (data : BitVec 64)
    (m : Memory) : Prop
  | written (m' : Memory)
    (run : self.writeRegisterU64 .memory bdf byteOffset data m = .ok () m')
    (readBack : self.readRegisterU64 .memory bdf byteOffset m' = .ok data m')
    (others : ∀ f o, o < 4096 → ¬(f = bdf ∧ byteOffset ≤ o ∧ o < byteOffset + 8) →
      m' (self.baseOf f + o) = m (self.baseOf f + o))
  | refused (msg : String) (m' : Memory)
    (run : self.writeRegisterU64 .memory bdf byteOffset data m = .error (.err msg) m')
    (unchanged : ∀ f o, o < 4096 → m' (self.baseOf f + o) = m (self.baseOf f + o))

/-- A write that is not accepted changes nothing. -/
theorem writeRegisterU32_of_not_accepts {σ : Type} {space : ConfigSpace σ}
    (hbase : self.baseOf bdf < 2 ^ 64) (h : ¬ConfigRegisters.Accepts 32 byteOffset)
    (data : BitVec 32) (s : σ) :
    self.writeRegisterU32 space bdf byteOffset data s =
      .error (.err "PCI config register write out of range") s := by
  rw [writeRegisterU32, ecmBase, Usize.add_bind hbase, ConfigRegisters.write, if_neg h]

/-- Only at the last dword of a function is the second half of a `u64` refused when the first one is
accepted. -/
theorem accepts_add_four_iff (h : ConfigRegisters.Accepts 32 byteOffset) :
    ConfigRegisters.Accepts 32 (byteOffset + 4) ↔ byteOffset ≠ 252 := by
  simp only [ConfigRegisters.Accepts] at h ⊢
  omega

/-- Where both halves are accepted, all is written. -/
theorem writesWhole_of_accepts (hbase : self.baseOf bdf < 2 ^ 64)
    (h : ConfigRegisters.Accepts 32 byteOffset)
    (h' : ConfigRegisters.Accepts 32 (byteOffset + 4)) (data : BitVec 64) (m : Memory) :
    WritesWhole self bdf byteOffset data m := by
  have hlt : byteOffset + 8 < 4096 := by
    have := h.1
    omega
  refine .written _ (run_writeRegisterU64 hbase h h' data m) ?_ fun f o ho hother => ?_
  · rw [run_readRegisterU64 hbase h h', ConfigSpace.read_write_memory,
      ConfigSpace.read_write_memory_of_disjoint (.inr (by omega)), ConfigSpace.read_write_memory,
      join_dwords]
  · have hout : self.baseOf f + o < self.baseOf bdf + byteOffset ∨
        self.baseOf bdf + (byteOffset + 8) ≤ self.baseOf f + o := by
      by_contra hin
      have heq : self.baseOf f + o = self.baseOf bdf + (self.baseOf f + o - self.baseOf bdf) := by
        omega
      obtain ⟨rfl, ho'⟩ := baseOf_add_inj ho (by omega) heq
      exact hother ⟨rfl, by omega, by omega⟩
    rw [ConfigSpace.write_memory_of_not_mem (by omega),
      ConfigSpace.write_memory_of_not_mem (by omega)]

/-- Where the first half is refused, nothing is written. -/
theorem writesWhole_of_not_accepts (hbase : self.baseOf bdf < 2 ^ 64)
    (h : ¬ConfigRegisters.Accepts 32 byteOffset) (data : BitVec 64) (m : Memory) :
    WritesWhole self bdf byteOffset data m :=
  .refused _ m (Method.bind_of_error (writeRegisterU32_of_not_accepts hbase h _ m))
    fun _ _ _ => rfl

/-- Where the address of the function overflows, the call panics. -/
theorem not_writesWhole_of_overflow (hbase : ¬self.baseOf bdf < 2 ^ 64) (byteOffset : ℕ)
    (data : BitVec 64) (m : Memory) : ¬WritesWhole self bdf byteOffset data m := by
  have hecm : (self.ecmBase bdf : Method Memory ℕ) m =
      .error (.panic "attempt to add with overflow") m := by
    rw [ecmBase, Usize.add]
    exact congrFun (if_neg hbase) m
  have hrun : self.writeRegisterU64 .memory bdf byteOffset data m =
      .error (.panic "attempt to add with overflow") m :=
    Method.bind_of_error (Method.bind_of_error hecm)
  intro h
  cases h with
  | written m' run => cases hrun.symm.trans run
  | refused msg m' run => cases hrun.symm.trans run

/-- At the last dword the first half is written before the second one is refused. -/
theorem writeRegisterU64_last (hbase : self.baseOf bdf < 2 ^ 64) (data : BitVec 64) (m : Memory) :
    self.writeRegisterU64 .memory bdf 252 data m =
      .error (.err "PCI config register write out of range")
        (ConfigSpace.memory.write 32 (self.baseOf bdf + 252) (data.setWidth 32) m) := by
  rw [writeRegisterU64, Method.bind_of_ok (run_writeRegisterU32 hbase (by decide) _ m),
    writeRegisterU32_of_not_accepts hbase (by decide)]

/-- So nothing has changed there exactly when the first half was there already. -/
theorem writesWhole_last_iff (hbase : self.baseOf bdf < 2 ^ 64) (data : BitVec 64) (m : Memory) :
    WritesWhole self bdf 252 data m ↔
      ConfigSpace.memory.read 32 (self.baseOf bdf + 252) m = data.setWidth 32 := by
  have hrun := writeRegisterU64_last hbase data m
  rw [← ConfigSpace.write_memory_eq_iff]
  constructor
  · intro h x hlo hhi
    cases h with
    | written m' run => cases hrun.symm.trans run
    | refused msg m' run unchanged =>
      cases hrun.symm.trans run
      have hsame := unchanged bdf (x - self.baseOf bdf) (by omega)
      rwa [Nat.add_sub_cancel' (by omega)] at hsame
  · intro hsame
    refine .refused _ _ hrun fun f o ho => ?_
    by_cases hin : self.baseOf bdf + 252 ≤ self.baseOf f + o ∧
        self.baseOf f + o < self.baseOf bdf + 252 + 4
    · exact hsame _ hin.1 hin.2
    · exact ConfigSpace.write_memory_of_not_mem (by omega)

/-- A write of a `u64` is done as a whole exactly when the address of the function does not overflow
and, at the last dword, the first half is there already. -/
theorem writesWhole_iff (self : Pci) (bdf : BusDeviceFunction) (byteOffset : ℕ) (data : BitVec 64)
    (m : Memory) :
    WritesWhole self bdf byteOffset data m ↔
      self.baseOf bdf < 2 ^ 64 ∧ (byteOffset = 252 →
        ConfigSpace.memory.read 32 (self.baseOf bdf + 252) m = data.setWidth 32) := by
  by_cases hbase : self.baseOf bdf < 2 ^ 64
  case neg =>
    exact iff_of_false (not_writesWhole_of_overflow hbase byteOffset data m) fun h => hbase h.1
  case pos =>
    rw [and_iff_right hbase]
    by_cases hlast : byteOffset = 252
    case pos => rw [hlast, writesWhole_last_iff hbase, forall_prop_of_true rfl]
    case neg =>
      refine iff_of_true ?_ fun h => absurd h hlast
      by_cases haccepts : ConfigRegisters.Accepts 32 byteOffset
      · exact writesWhole_of_accepts hbase haccepts ((accepts_add_four_iff haccepts).2 hlast) data m
      · exact writesWhole_of_not_accepts hbase haccepts data m

/-- Four bytes of the configuration space change although the write is refused. -/
theorem not_writesWhole_last : ¬WritesWhole atZero ⟨0⟩ 252 1 fun _ => 0 := by
  rw [writesWhole_last_iff (by decide)]
  decide

end Pci

end Mushix
