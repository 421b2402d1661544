import Mushix.Pci.Config

/-!
# The size of a BAR

How the program finds out where BAR 0 of a function is and how large (`pci.rs`), and the devices
on which this works.

* `Pci.tryBar0Mem64`: the probe;
* `IsMemBar`: a 64-bit memory BAR of `2 ^ n` bytes;
* `Pci.tryBar0Mem64_iff`: for which BARs the probe returns their address and size.
-/

namespace Mushix

open BitField (lowMask store)

/-- The memory behind a 64-bit BAR. -/
structure BarMem64 where
  addr : BitVec 64
  size : BitVec 64
  deriving DecidableEq, Repr

namespace Pci

variable {σ : Type} (space : ConfigSpace σ) (self : Pci)

/-- `try_bar0_mem64` finds the address and the size of the memory behind BAR0, for which all its
bits are set for a while. -/
def tryBar0Mem64 (bdf : BusDeviceFunction) : Method σ BarMem64 := do
  let bar0 ← self.readRegisterU64 space bdf 0x10
  if bar0 &&& 0b0111#64 = 0b0100#64 then
    let addr := bar0 &&& ~~~0b111#64
    -- the bits below the size read back as zero
    self.writeRegisterU64 space bdf 0x10 (~~~0#64)
    let probed ← self.readRegisterU64 space bdf 0x10
    let size ← Usize.add 1 (~~~(probed &&& ~~~0b111#64)).toNat
    self.writeRegisterU64 space bdf 0x10 bar0
    return { addr, size := BitVec.ofNat 64 size }
  else
    throw (.err "BAR0 is not a memory-mapped I/O region")

end Pci

/-! ## Memory BARs -/

/-- The bits of the low dword of a BAR. -/
def lowDword : BitVec 64 := lowMask 64 32

/-- The bits from `n` on, which can be written in a BAR of `2 ^ n` bytes. -/
def addressBits (n : ℕ) : BitVec 64 := ~~~lowMask 64 n

/-- The two dwords at an address are a BAR, of which the bits from `n` on can be written. -/
structure IsMemBar {σ : Type} (space : ConfigSpace σ) (addr n : ℕ) (bar : σ → BitVec 64) :
    Prop where
  read_low (s : σ) : space.read 32 addr s = (bar s).setWidth 32
  read_high (s : σ) : space.read 32 (addr + 4) s = (bar s >>> 32).setWidth 32
  write_low (data : BitVec 32) (s : σ) : bar (space.write 32 addr data s) =
    store (bar s) (addressBits n &&& lowDword) (data.setWidth 64)
  write_high (data : BitVec 32) (s : σ) : bar (space.write 32 (addr + 4) data s) =
    store (bar s) (addressBits n &&& ~~~lowDword) (data.setWidth 64 <<< 32)

/-- The low four bits of a 64-bit memory BAR. -/
def barFlags (prefetchable : Bool) : BitVec 64 := if prefetchable then 0b1100 else 0b0100

/-- The value of a 64-bit memory BAR. -/
def memBar (base : ℕ) (prefetchable : Bool) : BitVec 64 :=
  BitVec.ofNat 64 base ||| barFlags prefetchable

/-- A word is put together from its dwords. -/
theorem join_dwords (x : BitVec 64) :
    ((x >>> 32).setWidth 32).setWidth 64 <<< 32 ||| (x.setWidth 32).setWidth 64 = x := by
  apply BitVec.eq_of_getLsbD_eq
  intro i hi
  rw [BitVec.getLsbD_or, BitVec.getLsbD_shiftLeft, BitVec.getLsbD_setWidth,
    BitVec.getLsbD_setWidth, BitVec.getLsbD_setWidth, BitVec.getLsbD_setWidth,
    BitVec.getLsbD_ushiftRight]
  rcases Nat.lt_or_ge i 32 with hlow | hhigh
  · simp [hi, hlow]
  · have hindex : 32 + (i - 32) = i := by omega
    simp [hi, Nat.not_lt.2 hhigh, hindex, show i - 32 < 32 by omega, show i - 32 < 64 by omega]

/-- The low three bits of a word are in its low dword. -/
theorem join_and_seven (hi lo : BitVec 32) :
    (hi.setWidth 64 <<< 32 ||| lo.setWidth 64) &&& 0b111#64 = (lo &&& 0b111#32).setWidth 64 := by
  have hmask : 0b111#64 = lowMask 64 3 := by decide
  have hmask' : 0b111#32 = lowMask 32 3 := by decide
  apply BitVec.eq_of_getLsbD_eq
  intro i hi
  simp only [hmask, hmask', BitVec.getLsbD_and, BitVec.getLsbD_or, BitVec.getLsbD_shiftLeft,
    BitVec.getLsbD_setWidth, BitField.getLsbD_lowMask (show 3 < 64 by decide),
    BitField.getLsbD_lowMask (show 3 < 32 by decide)]
  rcases Nat.lt_or_ge i 3 with hlow | hhigh
  · simp [hi, show i < 32 by omega]
  · simp [Nat.not_lt.2 hhigh]

theorem setWidth_and_lowDword (x mask : BitVec 64) :
    (x.setWidth 32).setWidth 64 &&& (mask &&& lowDword) = x &&& (mask &&& lowDword) := by
  apply BitVec.eq_of_getLsbD_eq
  intro i hi
  simp only [lowDword, BitVec.getLsbD_and, BitField.getLsbD_lowMask (show 32 < 64 by decide),
    BitVec.getLsbD_setWidth]
  rcases Nat.lt_or_ge i 32 with hlow | hhigh
  · simp [hi, hlow]
  · simp [Nat.not_lt.2 hhigh]

theorem shiftLeft_and_highDword (x mask : BitVec 64) :
    ((x >>> 32).setWidth 32).setWidth 64 <<< 32 &&& (mask &&& ~~~lowDword) =
      x &&& (mask &&& ~~~lowDword) := by
  apply BitVec.eq_of_getLsbD_eq
  intro i hi
  simp only [lowDword, BitVec.getLsbD_and, BitVec.getLsbD_not,
    BitField.getLsbD_lowMask (show 32 < 64 by decide), BitVec.getLsbD_shiftLeft,
    BitVec.getLsbD_setWidth, BitVec.getLsbD_ushiftRight]
  rcases Nat.lt_or_ge i 32 with hlow | hhigh
  · simp [hlow]
  · have hindex : 32 + (i - 32) = i := by omega
    simp [hi, Nat.not_lt.2 hhigh, hindex, show i - 32 < 32 by omega, show i - 32 < 64 by omega]

namespace IsMemBar

variable {σ : Type} {space : ConfigSpace σ} {self : Pci} {bdf : BusDeviceFunction} {n : ℕ}
  {bar : σ → BitVec 64}

/-- The BAR is read as a whole. -/
theorem run_read (h : IsMemBar space (self.baseOf bdf + 0x10) n bar)
    (hbase : self.baseOf bdf < 2 ^ 64) (s : σ) :
    self.readRegisterU64 space bdf 0x10 s = .ok (bar s) s := by
  rw [Pci.run_readRegisterU64 hbase (by decide) (by decide), h.read_low,
    show self.baseOf bdf + (0x10 + 4) = self.baseOf bdf + 0x10 + 4 from rfl, h.read_high,
    join_dwords]

/-- The BAR is written as a whole. -/
theorem run_write (h : IsMemBar space (self.baseOf bdf + 0x10) n bar)
    (hbase : self.baseOf bdf < 2 ^ 64) (data : BitVec 64) (s : σ) :
    ∃ s', self.writeRegisterU64 space bdf 0x10 data s = .ok () s' ∧
      bar s' = store (bar s) (addressBits n) data := by
  refine ⟨_, Pci.run_writeRegisterU64 hbase (by decide) (by decide) data s, ?_⟩
  rw [show self.baseOf bdf + (0x10 + 4) = self.baseOf bdf + 0x10 + 4 from rfl, h.write_high,
    h.write_low, BitField.store_congr (setWidth_and_lowDword data (addressBits n)),
    BitField.store_congr (shiftLeft_and_highDword data (addressBits n)),
    BitField.store_store_compl]

end IsMemBar

/-! ## The numbers in a BAR -/

section Numbers

variable {base n : ℕ} {prefetchable : Bool}

/-- The flags of a 64-bit memory BAR, by its prefetchable bit. -/
theorem toNat_barFlags (prefetchable : Bool) :
    (barFlags prefetchable).toNat = if prefetchable then 12 else 4 := by
  cases prefetchable <;> rfl

/-- The flags do not overlap the address. -/
theorem toNat_memBar (prefetchable : Bool) (hbase : base < 2 ^ 64) (hdvd : 2 ^ n ∣ base)
    (hn : 4 ≤ n) :
    (memBar base prefetchable).toNat = base + (barFlags prefetchable).toNat := by
  have hdvd' : 2 ^ 4 ∣ base := (Nat.pow_dvd_pow 2 hn).trans hdvd
  have htoNat : (BitVec.ofNat 64 base).toNat = base := by
    rw [BitVec.toNat_ofNat, Nat.mod_eq_of_lt hbase]
  have hflags : (barFlags prefetchable).toNat < 2 ^ 4 := by
    rw [toNat_barFlags]
    split <;> decide
  have haligned : (BitVec.ofNat 64 base).toNat % 2 ^ 4 = 0 := by
    rw [htoNat, Nat.mod_eq_zero_of_dvd hdvd']
  rw [memBar, BitField.toNat_or_of_aligned haligned hflags, htoNat]

/-- Clearing the low three bits leaves the prefetchable bit. -/
theorem toNat_and_not_seven {x : BitVec 64} {a : ℕ}
    (hx : x.toNat = a + (barFlags prefetchable).toNat) (ha : 2 ^ 3 ∣ a) :
    x &&& 0b111#64 = 0b100#64 ∧
      (x &&& ~~~0b111#64).toNat = a + if prefetchable then 8 else 0 := by
  have hmask : 0b111#64 = lowMask 64 3 := by decide
  -- the prefetchable bit is bit 3, just above the mask
  have hmod : x.toNat % 2 ^ 3 = 4 := by
    rw [hx, toNat_barFlags]
    split <;> omega
  constructor
  · apply BitVec.eq_of_toNat_eq
    rw [hmask, BitField.toNat_and_lowMask (by decide), hmod]
    rfl
  · rw [hmask, BitField.toNat_and_not_lowMask (by decide), hmod, hx, toNat_barFlags]
    split <;> omega

/-- What the BAR reads as after all ones were stored to it. -/
theorem toNat_probed (prefetchable : Bool) (hbase : base < 2 ^ 64) (hdvd : 2 ^ n ∣ base)
    (hn : 4 ≤ n) (hlt : n < 64) :
    (store (memBar base prefetchable) (addressBits n) (~~~0#64)).toNat =
      2 ^ 64 - 2 ^ n + (barFlags prefetchable).toNat := by
  have hpow : (2 : ℕ) ^ 4 ≤ 2 ^ n := Nat.pow_le_pow_right (by decide) hn
  have hones : addressBits n = ~~~0#64 &&& addressBits n := by
    rw [show ~~~0#64 = BitVec.allOnes 64 by decide, BitVec.allOnes_and]
  -- the address bits read as ones, the bits below `n` keep the flags
  have haddress : (addressBits n).toNat = 2 ^ 64 - 2 ^ n := by
    have := Nat.two_pow_pos n
    rw [addressBits, BitVec.toNat_not, BitField.toNat_lowMask hlt]
    omega
  have hlow : (memBar base prefetchable &&& ~~~addressBits n).toNat =
      (barFlags prefetchable).toNat := by
    have hflags : (barFlags prefetchable).toNat < 2 ^ n := by
      rw [toNat_barFlags]
      split <;> omega
    rw [addressBits, BitVec.not_not, BitField.toNat_and_lowMask hlt,
      toNat_memBar prefetchable hbase hdvd hn, Nat.add_mod, Nat.mod_eq_zero_of_dvd hdvd,
      Nat.zero_add, Nat.mod_mod, Nat.mod_eq_of_lt hflags]
  have haligned : (addressBits n).toNat % 2 ^ n = 0 := by
    have hsub : 2 ^ n ∣ 2 ^ 64 - 2 ^ n :=
      Nat.dvd_sub (Nat.pow_dvd_pow 2 hlt.le) (dvd_refl _)
    rw [haddress, Nat.mod_eq_zero_of_dvd hsub]
  have hbound : (memBar base prefetchable &&& ~~~addressBits n).toNat < 2 ^ n := by
    rw [hlow, toNat_barFlags]
    split <;> omega
  rw [store, ← hones, BitVec.or_comm, BitField.toNat_or_of_aligned haligned hbound, haddress, hlow]

end Numbers

namespace Pci

variable {σ : Type} {space : ConfigSpace σ} {self : Pci} {bdf : BusDeviceFunction} {n base : ℕ}
  {bar : σ → BitVec 64} {prefetchable : Bool}

/-- The probe of a memory BAR: of the flags, the prefetchable bit goes into the address and is
missing from the size. -/
theorem tryBar0Mem64_eq (hbase : self.baseOf bdf < 2 ^ 64) (hn : 4 ≤ n ∧ n < 64)
    (hlt : base < 2 ^ 64) (hdvd : 2 ^ n ∣ base)
    (hbar : IsMemBar space (self.baseOf bdf + 0x10) n bar) {s : σ}
    (hs : bar s = memBar base prefetchable) :
    ∃ found s', self.tryBar0Mem64 space bdf s = .ok found s' ∧ bar s' = bar s ∧
      found.addr.toNat = base + (if prefetchable then 8 else 0) ∧
      found.size.toNat = 2 ^ n - if prefetchable then 8 else 0 := by
  have hpow : (2 : ℕ) ^ 4 ≤ 2 ^ n := Nat.pow_le_pow_right (by decide) hn.1
  have hpow' : (2 : ℕ) ^ n < 2 ^ 64 := Nat.pow_lt_pow_right (by decide) hn.2
  have hdvd3 : 2 ^ 3 ∣ 2 ^ n := Nat.pow_dvd_pow 2 (by omega)
  obtain ⟨htype, haddr⟩ := toNat_and_not_seven (toNat_memBar prefetchable hlt hdvd hn.1)
    (hdvd3.trans hdvd)
  obtain ⟨s₁, hwrite₁, hbar₁⟩ := hbar.run_write hbase (~~~0#64) s
  obtain ⟨-, hprobed⟩ := toNat_and_not_seven (toNat_probed prefetchable hlt hdvd hn.1 hn.2)
    (Nat.dvd_sub (Nat.pow_dvd_pow 2 (by decide)) hdvd3)
  rw [← hs, ← hbar₁] at hprobed
  -- the complement loses bit 3 where the BAR is prefetchable, and the size with it
  have hnot : (~~~(bar s₁ &&& ~~~0b111#64)).toNat = 2 ^ n - 1 - if prefetchable then 8 else 0 := by
    rw [BitVec.toNat_not, hprobed]
    split <;> omega
  obtain ⟨s₂, hwrite₂, hbar₂⟩ := hbar.run_write hbase (bar s) s₁
  refine ⟨{ addr := bar s &&& ~~~0b111#64
            size := BitVec.ofNat 64 (1 + (~~~(bar s₁ &&& ~~~0b111#64)).toNat) }, s₂, ?_, ?_, ?_, ?_⟩
  · rw [tryBar0Mem64, Method.bind_of_ok (hbar.run_read hbase s), hs, Method.run_ite, if_pos htype,
      Method.bind_of_ok hwrite₁, Method.bind_of_ok (hbar.run_read hbase s₁),
      Usize.add_bind (by rw [hnot]; split <;> omega), ← hs, Method.bind_of_ok hwrite₂]
    rfl
  -- the value that was read at the start is stored again at the end
  · rw [hbar₂, hbar₁, BitField.store_store_self]
  · rw [hs, haddr]
  · rw [BitVec.toNat_ofNat, hnot]
    split <;> omega

/-- Where the low bits of BAR 0 are those of another BAR, the probe stores nothing. -/
theorem tryBar0Mem64_of_ne (hbase : self.baseOf bdf < 2 ^ 64) {s : σ}
    (hs : space.read 32 (self.baseOf bdf + 0x10) s &&& 0b111#32 ≠ 0b100#32) :
    self.tryBar0Mem64 space bdf s =
      .error (.err "BAR0 is not a memory-mapped I/O region") s := by
  have hread : self.readRegisterU64 space bdf 0x10 s = .ok _ s :=
    run_readRegisterU64 hbase (by decide) (by decide) s
  rw [tryBar0Mem64, Method.bind_of_ok hread, Method.run_ite, if_neg ?_]
  · rfl
  -- the test is made on the joined word, but its three bits are those of the low dword
  rw [join_and_seven]
  intro htype
  refine hs (BitVec.eq_of_toNat_eq ?_)
  have hlow := congrArg BitVec.toNat htype
  rwa [BitVec.toNat_setWidth_of_le (by decide)] at hlow

/-- The probe finds a memory BAR and leaves it as it was. -/
def FindsBar0 (space : ConfigSpace σ) (self : Pci) (bdf : BusDeviceFunction)
    (bar : σ → BitVec 64) (base n : ℕ) (s : σ) : Prop :=
  ∃ s', self.tryBar0Mem64 space bdf s =
    .ok { addr := BitVec.ofNat 64 base, size := BitVec.ofNat 64 (2 ^ n) } s' ∧ bar s' = bar s

/-- The probe of a memory BAR finds it exactly when it is not prefetchable, and the probe of any
other BAR stores nothing, whatever is behind the configuration space of the function. -/
theorem tryBar0Mem64_iff (space : ConfigSpace σ) (self : Pci) (bdf : BusDeviceFunction)
    (hbase : self.baseOf bdf < 2 ^ 64) :
    (∀ (n base : ℕ) (prefetchable : Bool) (bar : σ → BitVec 64) (s : σ), 4 ≤ n → n < 64 →
      base < 2 ^ 64 → 2 ^ n ∣ base → IsMemBar space (self.baseOf bdf + 0x10) n bar →
      bar s = memBar base prefetchable →
      (FindsBar0 space self bdf bar base n s ↔ prefetchable = false)) ∧
    ∀ s, space.read 32 (self.baseOf bdf + 0x10) s &&& 0b111#32 ≠ 0b100#32 →
      ∃ msg, self.tryBar0Mem64 space bdf s = .error (.err msg) s := by
  refine ⟨fun n base prefetchable bar s hn hn' hlt hdvd hbar hs => ?_,
    fun s hs => ⟨_, tryBar0Mem64_of_ne hbase hs⟩⟩
  obtain ⟨found, s', hrun, hkeep, haddr, hsize⟩ :=
    tryBar0Mem64_eq hbase ⟨hn, hn'⟩ hlt hdvd hbar hs
  constructor
  · rintro ⟨s'', hfound, -⟩
    rw [hrun] at hfound
    cases hfound
    rw [BitVec.toNat_ofNat, Nat.mod_eq_of_lt hlt] at haddr
    cases prefetchable
    · rfl
    -- a prefetchable BAR is found 8 bytes too high
    · exact absurd haddr (by simp)
  · rintro rfl
    have hpow : (2 : ℕ) ^ n < 2 ^ 64 := Nat.pow_lt_pow_right (by decide) hn'
    have haddr' : found.addr = BitVec.ofNat 64 base := by
      apply BitVec.eq_of_toNat_eq
      rw [haddr, BitVec.toNat_ofNat, Nat.mod_eq_of_lt hlt]
      rfl
    have hsize' : found.size = BitVec.ofNat 64 (2 ^ n) := by
      apply BitVec.eq_of_toNat_eq
      rw [hsize, BitVec.toNat_ofNat, Nat.mod_eq_of_lt hpow]
      rfl
    refine ⟨s', ?_, hkeep⟩
    rw [hrun, ← haddr', ← hsize']

/-! ## A device -/

/-- A configuration space that is one BAR of `2 ^ n` bytes at `0x10`. -/
def oneBar (n : ℕ) : ConfigSpace (BitVec 64) where
  read w addr bar := if addr = 0x10 then bar.setWidth w else (bar >>> 32).setWidth w
  write _ addr data bar :=
    if addr = 0x10 then
      store bar (addressBits n &&& lowDword) (data.setWidth 64)
    else
      store bar (addressBits n &&& ~~~lowDword) (data.setWidth 64 <<< 32)

theorem isMemBar_oneBar (n : ℕ) : IsMemBar (oneBar n) 0x10 n id where
  read_low _ := rfl
  read_high _ := rfl
  write_low _ _ := rfl
  write_high _ _ := rfl

/-- A BAR of 64 KiB that is not prefetchable, and an empty register. -/
theorem tryBar0Mem64_iff_oneBar :
    (FindsBar0 (oneBar 16) atZero ⟨0⟩ id 0x800000000 16 0x800000004 ↔ false = false) ∧
      ∃ msg, atZero.tryBar0Mem64 (oneBar 16) ⟨0⟩ 0 = .error (.err msg) 0 := by
  have hprobe := tryBar0Mem64_iff (oneBar 16) atZero ⟨0⟩ (by decide)
  exact ⟨hprobe.1 16 0x800000000 false id 0x800000004 (by decide) (by decide) (by decide)
    (by decide) (isMemBar_oneBar 16) (by decide), hprobe.2 0 (by decide)⟩

/-- A prefetchable BAR of 64 KiB is taken for one at 8 bytes more. -/
theorem not_tryBar0Mem64_prefetchable :
    memBar 0x800000000 true = 0x80000000C ∧
      ¬FindsBar0 (oneBar 16) atZero ⟨0⟩ id 0x800000000 16 0x80000000C := by
  have hvalue : memBar 0x800000000 true = 0x80000000C := by decide
  refine ⟨hvalue, ?_⟩
  rintro ⟨s', hfound, -⟩
  have hbase : atZero.baseOf ⟨0⟩ < 2 ^ 64 := by decide
  obtain ⟨found, s'', hrun, -, haddr, -⟩ := tryBar0Mem64_eq hbase ⟨by decide, by decide⟩
    (by decide) (by decide : 2 ^ 16 ∣ 0x800000000) (isMemBar_oneBar 16) hvalue.symm
  rw [hrun] at hfound
  cases hfound
  exact absurd haddr (by decide)

end Pci

end Mushix
