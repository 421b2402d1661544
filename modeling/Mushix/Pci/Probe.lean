import Mushix.Acpi
import Mushix.Loop
import Mushix.Pci.Bar0
import Mushix.Pci.Command

/-!
# The probing of PCI devices

Where the program expects the configuration space and which functions it looks for there (`pci.rs`).

* `Pci.new`: the range of the configuration space, from the MCFG table;
* `Pci.probeDevices`: the loop over buses, devices and functions;
* `Pci.probeDevices_congr`: which accesses it can make;
* `Pci.probe_within_iff`: which of its accesses go into that range.
-/

namespace Mushix

open Bytes (Memory)

namespace BusDeviceFunction

/-- The function with these numbers, if they are small enough. -/
def new (bus device function : ℕ) : Except String BusDeviceFunction :=
  if ¬bus < 256 ∨ ¬device < 32 ∨ ¬function < 8 then
    .error "PCI bus device functikon out of range"
  else
    .ok { id := BitVec.ofNat 16 (bus <<< 8 ||| device <<< 3 ||| function <<< 0) }

variable (self : BusDeviceFunction)

/-- The number of the bus. -/
def bus : ℕ := (self.id.toNat &&& 0b1111111100000000) >>> 8

/-- The number of the device on its bus. -/
def device : ℕ := (self.id.toNat &&& 0b0000000011111000) >>> 3

/-- The number of the function of its device. -/
def function : ℕ := (self.id.toNat &&& 0b0000000000000111) >>> 0

end BusDeviceFunction

/-- Who has made a device, and which one it is. -/
structure VendorDeviceId where
  vendor : BitVec 16
  device : BitVec 16
  deriving DecidableEq, Repr

/-- The controllers that the driver knows. -/
def PciXhciDriver.supports (vd : VendorDeviceId) : Bool :=
  [⟨0x1b36, 0x000d⟩, ⟨0x8086, 0x31a8⟩, ⟨0x8086, 0x02ed⟩, ⟨0x8086, 0x9d2f⟩].contains vd

namespace Pci

variable {σ : Type}

/-- `Pci::new` takes the range of the configuration space from the only entry of the MCFG table. -/
def new (mem : Memory) (mcfg : ℕ) : Method σ Pci := do
  if (← AcpiMcfgDescriptor.numOfEntries mem mcfg) = 1 then
    let entry ← Method.ofOption (.panic "out of range") (← AcpiMcfgDescriptor.entry mem mcfg 0)
    let pciConfigSpaceBase := EcamEntry.baseAddress mem entry
    let pciConfigSpaceEnd ← Usize.add pciConfigSpaceBase (1 <<< 24)
    return { ecmStart := pciConfigSpaceBase, ecmEnd := pciConfigSpaceEnd }
  else
    throw (.panic "assertion failed: mcfg.num_of_entries() == 1")

variable (space : ConfigSpace σ) (self : Pci)

/-- `result.ok()`, which forgets an `Err`. -/
def ok {α : Type} (x : Method σ α) : Method σ (Option α) := fun s =>
  match x s with
  | .ok a s' => .ok (some a) s'
  | .error (.err _) s' => .ok none s'
  | .error (.panic msg) s' => .error (.panic msg) s'

/-- The two identifiers of a function, if there is one. -/
def readVendorIdAndDeviceId (id : BusDeviceFunction) : Method σ (Option VendorDeviceId) := do
  match ← ok (self.readRegisterU16 space id 0) with
  | none => return none
  | some vendor =>
    match ← ok (self.readRegisterU16 space id 2) with
    | none => return none
    | some device =>
      -- nothing at this address answers with ones
      if vendor = 0xffff ∨ device = 0xffff then
        return none
      else if vendor = 0x0000 ∨ device = 0x0000 then
        return none
      else
        return some { vendor, device }

/-- `PciXhciDriver::attach`. What is done with the controller once its registers are found is a
parameter. -/
def attach (start : BarMem64 → Method σ Unit) (bdf : BusDeviceFunction) : Method σ Unit := do
  self.disableInterrupt space bdf
  self.enableBusMastering space bdf
  let bar0 ← self.tryBar0Mem64 space bdf
  start bar0

/-- The buses, devices and functions of the loops in `probe_devices`, in order. -/
def probed : List (ℕ × ℕ × ℕ) :=
  (List.range 32).flatMap fun bus =>
    (List.range 32).flatMap fun device =>
      (List.range 8).map fun function => (bus, device, function)

/-- `probe_devices` looks for a driver for every function, and ignores where one fails. -/
def probeDevices (start : BarMem64 → Method σ Unit) : Method σ Unit :=
  probed.forM fun (bus, device, function) => do
    match BusDeviceFunction.new bus device function with
    | .error _ => return ()
    | .ok bdf =>
      match ← self.readVendorIdAndDeviceId space bdf with
      | none => return ()
      | some vd =>
        if PciXhciDriver.supports vd then
          -- a driver that cannot be attached is an error message
          let _ ← ok (self.attach space start bdf)
        return ()

end Pci

/-! ## Numbers of functions -/

namespace BusDeviceFunction

variable {b d f : ℕ} {bdf : BusDeviceFunction}

/-- The number of a function. -/
theorem toNat_id_of_new (h : new b d f = .ok bdf) :
    b < 256 ∧ d < 32 ∧ f < 8 ∧ bdf.id.toNat = b * 256 + d * 8 + f := by
  rw [new] at h
  split_ifs at h with hrange
  simp only [not_or, not_not] at hrange
  obtain ⟨hb, hd, hf⟩ := hrange
  cases h
  have hlow : d <<< 3 ||| f <<< 0 = 2 ^ 3 * d + f := by
    rw [Nat.shiftLeft_zero, Nat.shiftLeft_eq, Nat.mul_comm, Nat.two_pow_add_eq_or_of_lt hf]
  have hall : b <<< 8 ||| (d <<< 3 ||| f <<< 0) = 2 ^ 8 * b + (2 ^ 3 * d + f) := by
    rw [hlow, Nat.shiftLeft_eq, Nat.mul_comm]
    exact (Nat.two_pow_add_eq_or_of_lt (show 2 ^ 3 * d + f < 2 ^ 8 by omega) b).symm
  refine ⟨hb, hd, hf, ?_⟩
  rw [Nat.or_assoc, hall, BitVec.toNat_ofNat]
  omega

/-- A bus, device and function in range have an id. -/
theorem new_of_lt (hb : b < 256) (hd : d < 32) (hf : f < 8) : ∃ bdf, new b d f = .ok bdf :=
  ⟨_, if_neg (by omega)⟩

/-- The parts of a function are those that it was made of. -/
theorem parts_of_new (h : new b d f = .ok bdf) :
    bdf.bus = b ∧ bdf.device = d ∧ bdf.function = f := by
  obtain ⟨hb, hd, hf, hid⟩ := toNat_id_of_new h
  refine ⟨?_, ?_, ?_⟩
  · rw [bus, Nat.shiftRight_and_distrib, Nat.shiftRight_eq_div_pow,
      show 0b1111111100000000 >>> 8 = 2 ^ 8 - 1 from rfl, Nat.and_two_pow_sub_one_eq_mod]
    omega
  · rw [device, Nat.shiftRight_and_distrib, Nat.shiftRight_eq_div_pow,
      show 0b0000000011111000 >>> 3 = 2 ^ 5 - 1 from rfl, Nat.and_two_pow_sub_one_eq_mod]
    omega
  · rw [function, Nat.shiftRight_zero, show 0b0000000000000111 = 2 ^ 3 - 1 from rfl,
      Nat.and_two_pow_sub_one_eq_mod]
    omega

end BusDeviceFunction

namespace Pci

variable {σ : Type} {self : Pci} {b d f b' d' f' w w' o o' : ℕ} {bdf bdf' : BusDeviceFunction}
  {mem : Memory} {mcfg : ℕ} {s : σ}

theorem mem_probed_iff : (b, d, f) ∈ probed ↔ b < 32 ∧ d < 32 ∧ f < 8 := by
  simp [probed]

/-- The bytes of an access. -/
def accessSpan (self : Pci) (bdf : BusDeviceFunction) (w byteOffset : ℕ) : Span where
  lo := ConfigRegisters.place w (self.baseOf bdf) byteOffset
  hi := ConfigRegisters.place w (self.baseOf bdf) byteOffset + w / 8

/-- The addresses of the configuration space. -/
def ecmRange (self : Pci) : Span := { lo := self.ecmStart, hi := self.ecmEnd }

/-- An access of `w` bits to a function that `probe_devices` enumerates, at an offset that is
accepted. -/
structure Probes (b d f : ℕ) (bdf : BusDeviceFunction) (w byteOffset : ℕ) : Prop where
  mem : (b, d, f) ∈ probed
  new : BusDeviceFunction.new b d f = .ok bdf
  width : w = 16 ∨ w = 32
  accepts : ConfigRegisters.Accepts w byteOffset

/-- An access ends before the registers of the next function. -/
theorem Probes.hi_le (h : Probes b d f bdf w o) : o + w / 8 ≤ 256 ∧ 0 < w / 8 := by
  obtain ⟨hlt, hmod⟩ := h.accepts
  rcases h.width with rfl | rfl
  · exact ⟨by omega, by decide⟩
  · exact ⟨by omega, by decide⟩

/-- The bytes of an access lie in the 4 KiB of its function. -/
theorem Probes.accessSpan_eq (h : Probes b d f bdf w o) (self : Pci) :
    accessSpan self bdf w o =
      { lo := self.ecmStart + bdf.id.toNat * 4096 + o
        hi := self.ecmStart + bdf.id.toNat * 4096 + o + w / 8 } := by
  rw [accessSpan, ConfigRegisters.place_eq h.accepts, baseOf, Nat.shiftLeft_eq]

/-- The accesses to the first 16 buses are those in the first 16 MiB. -/
theorem Probes.within_iff (h : Probes b d f bdf w o) (base : ℕ) :
    (accessSpan ⟨base, base + 1 <<< 24⟩ bdf w o).Within (ecmRange ⟨base, base + 1 <<< 24⟩) ↔
      b < 16 := by
  obtain ⟨-, hd, hf⟩ := mem_probed_iff.1 h.mem
  obtain ⟨-, -, -, hid⟩ := BusDeviceFunction.toNat_id_of_new h.new
  obtain ⟨hle, hpos⟩ := h.hi_le
  have hrange : base + 1 <<< 24 = base + 4096 * 4096 := rfl
  rw [h.accessSpan_eq]
  simp only [Span.Within, ecmRange, hrange]
  omega

/-- Accesses to different functions are apart. -/
theorem Probes.apart (h : Probes b d f bdf w o) (h' : Probes b' d' f' bdf' w' o')
    (hne : (b, d, f) ≠ (b', d', f')) (self : Pci) :
    (accessSpan self bdf w o).Apart (accessSpan self bdf' w' o') := by
  have hid : bdf.id.toNat ≠ bdf'.id.toNat := by
    intro heq
    -- a function has one number
    have hbdf : bdf = bdf' := by
      cases bdf
      cases bdf'
      simpa using BitVec.eq_of_toNat_eq heq
    subst hbdf
    obtain ⟨rfl, rfl, rfl⟩ := BusDeviceFunction.parts_of_new h.new
    obtain ⟨rfl, rfl, rfl⟩ := BusDeviceFunction.parts_of_new h'.new
    exact hne rfl
  obtain ⟨hle, -⟩ := h.hi_le
  obtain ⟨hle', -⟩ := h'.hi_le
  rw [h.accessSpan_eq, h'.accessSpan_eq, Span.Apart]
  rcases Nat.lt_or_gt_of_ne hid with hlt | hlt
  · exact le_trans (min_le_left _ _) (le_max_of_le_right (by simp only; omega))
  · exact le_trans (min_le_right _ _) (le_max_of_le_left (by simp only; omega))

/-! ## The accesses of a probe -/

section Accesses

variable {space space' : ConfigSpace σ}

/-- Two configuration spaces do the same at an access. -/
structure AgreeAt (space space' : ConfigSpace σ) (pci : Pci) (bdf : BusDeviceFunction)
    (w byteOffset : ℕ) : Prop where
  read (s : σ) : space.read w (accessSpan pci bdf w byteOffset).lo s =
    space'.read w (accessSpan pci bdf w byteOffset).lo s
  write (data : BitVec w) (s : σ) : space.write w (accessSpan pci bdf w byteOffset).lo data s =
    space'.write w (accessSpan pci bdf w byteOffset).lo data s

/-- They do the same for a function. -/
def AgreeFor (space space' : ConfigSpace σ) (self : Pci) (bdf : BusDeviceFunction) : Prop :=
  ∀ w o, w = 16 ∨ w = 32 → ConfigRegisters.Accepts w o → AgreeAt space space' self bdf w o

/-- Only the address of the function is handed to an access. -/
theorem ecmBase_bind_congr {α : Type} {g g' : ℕ → Method σ α}
    (h : g (self.baseOf bdf) = g' (self.baseOf bdf)) :
    (self.ecmBase bdf >>= g) = (self.ecmBase bdf >>= g') := by
  funext s
  by_cases hbase : self.baseOf bdf < 2 ^ 64
  · rw [ecmBase, Usize.add_bind hbase, Usize.add_bind hbase]
    exact congrFun h s
  · -- the address is not computed at all
    have hover : (self.ecmBase bdf : Method σ ℕ) s =
        .error (.panic "attempt to add with overflow") s := congrFun (if_neg hbase) s
    rw [Method.bind_of_error hover, Method.bind_of_error hover]

/-- A read only sees the space of its function. -/
theorem read_congr (h : AgreeFor space space' self bdf) (hw : w = 16 ∨ w = 32) :
    (ConfigRegisters.read space w (self.baseOf bdf) o) =
      ConfigRegisters.read space' w (self.baseOf bdf) o := by
  funext s
  by_cases haccepts : ConfigRegisters.Accepts w o
  · have hread := (h w o hw haccepts).read s
    simpa [ConfigRegisters.read, haccepts, accessSpan] using hread
  · simp [ConfigRegisters.read, haccepts]

/-- A write only changes the space of its function. -/
theorem write_congr (h : AgreeFor space space' self bdf) (hw : w = 16 ∨ w = 32)
    (data : BitVec w) :
    (ConfigRegisters.write space (self.baseOf bdf) o data) =
      ConfigRegisters.write space' (self.baseOf bdf) o data := by
  funext s
  by_cases haccepts : ConfigRegisters.Accepts w o
  · have hwrite := (h w o hw haccepts).write data s
    simpa [ConfigRegisters.write, haccepts, accessSpan] using hwrite
  · simp [ConfigRegisters.write, haccepts]

/-- The ids are read in the space of the function. -/
theorem readVendorIdAndDeviceId_congr (h : AgreeFor space space' self bdf) :
    self.readVendorIdAndDeviceId space bdf = self.readVendorIdAndDeviceId space' bdf := by
  have hread : ∀ o, self.readRegisterU16 space bdf o = self.readRegisterU16 space' bdf o :=
    fun o => ecmBase_bind_congr (read_congr h (.inl rfl))
  simp only [readVendorIdAndDeviceId, hread]

/-- A driver is attached in the space of its function. -/
theorem attach_congr (h : AgreeFor space space' self bdf) (start : BarMem64 → Method σ Unit) :
    self.attach space start bdf = self.attach space' start bdf := by
  have hread : ∀ o, self.readRegisterU32 space bdf o = self.readRegisterU32 space' bdf o :=
    fun o => ecmBase_bind_congr (read_congr h (.inr rfl))
  have hwrite : ∀ o data, self.writeRegisterU32 space bdf o data =
      self.writeRegisterU32 space' bdf o data :=
    fun o data => ecmBase_bind_congr (write_congr h (.inr rfl) data)
  simp only [attach, disableInterrupt, enableBusMastering, setCommandAndStatusFlags, tryBar0Mem64,
    readRegisterU64, writeRegisterU64, hread, hwrite]

/-- A probe makes no other accesses than those of `Probes`: what a configuration space does at any
other access does not matter. -/
theorem probeDevices_congr (h : ∀ b d f bdf w o, Probes b d f bdf w o →
    AgreeAt space space' self bdf w o) (start : BarMem64 → Method σ Unit) :
    self.probeDevices space start = self.probeDevices space' start := by
  rw [probeDevices, probeDevices]
  refine Method.forM_congr fun id hid => ?_
  obtain ⟨b, d, f⟩ := id
  dsimp only
  cases hnew : BusDeviceFunction.new b d f with
  | error msg => rfl
  | ok bdf =>
    have hagree : AgreeFor space space' self bdf := fun w o hw ho =>
      h b d f bdf w o ⟨hid, hnew, hw, ho⟩
    simp only [readVendorIdAndDeviceId_congr hagree, attach_congr hagree]

end Accesses

/-- The base address in the first entry of the MCFG table. -/
def ecamBase (mem : Memory) (mcfg : ℕ) : ℕ :=
  EcamEntry.baseAddress mem (AcpiMcfgDescriptor.entrySpan mcfg 0).lo

/-- The range has 16 MiB. -/
theorem new_eq (hone : (AcpiMcfgDescriptor.numOfEntries mem mcfg : Method σ ℕ) s = .ok 1 s)
    (hbase : ecamBase mem mcfg + 2 ^ 28 ≤ 2 ^ 64) :
    (new mem mcfg : Method σ Pci) s =
      .ok ⟨ecamBase mem mcfg, ecamBase mem mcfg + 1 <<< 24⟩ s := by
  have hentry : (AcpiMcfgDescriptor.entry mem mcfg 0 : Method σ (Option ℕ)) s =
      .ok (some (AcpiMcfgDescriptor.entrySpan mcfg 0).lo) s := by
    rw [AcpiMcfgDescriptor.entry, Method.bind_of_ok hone]
    rfl
  have hlt : ecamBase mem mcfg + 1 <<< 24 < 2 ^ 64 := by
    rw [Nat.shiftLeft_eq]
    omega
  rw [new, Method.bind_of_ok hone, if_pos rfl, Method.bind_of_ok hentry,
    Method.bind_of_ok (Method.run_ofOption_some _ _ _)]
  exact Method.bind_of_ok (Usize.run_add hlt)

/-- Of the accesses that `probe_devices` can make, those to the first 16 buses go into the range of
the configuration space and those to the other 16 do not. No two functions share a byte. -/
theorem probe_within_iff (s : σ)
    (hone : (AcpiMcfgDescriptor.numOfEntries mem mcfg : Method σ ℕ) s = .ok 1 s)
    (hbase : ecamBase mem mcfg + 2 ^ 28 ≤ 2 ^ 64) :
    ∃ self, (new mem mcfg : Method σ Pci) s = .ok self s ∧
      (∀ b d f bdf w o, Probes b d f bdf w o →
        (self.ecmBase bdf : Method σ ℕ) s = .ok (self.baseOf bdf) s ∧
          ((accessSpan self bdf w o).Within self.ecmRange ↔ b < 16)) ∧
      (∀ b d f bdf w o b' d' f' bdf' w' o', Probes b d f bdf w o → Probes b' d' f' bdf' w' o' →
        (b, d, f) ≠ (b', d', f') →
          (accessSpan self bdf w o).Apart (accessSpan self bdf' w' o')) ∧
      ¬∀ b d f bdf w o, Probes b d f bdf w o → (accessSpan self bdf w o).Within self.ecmRange := by
  refine ⟨_, new_eq hone hbase, fun b d f bdf w o h => ⟨?_, h.within_iff _⟩, ?_, fun hall => ?_⟩
  · have hid := bdf.id.isLt
    refine Usize.run_add (show ecamBase mem mcfg + bdf.id.toNat <<< 12 < 2 ^ 64 from ?_)
    rw [Nat.shiftLeft_eq]
    omega
  · exact fun b d f bdf w o b' d' f' bdf' w' o' h h' hne => h.apart h' hne _
  -- bus 16 is probed
  · obtain ⟨bdf, hnew⟩ := BusDeviceFunction.new_of_lt (show 16 < 256 by decide)
      (show 0 < 32 by decide) (show 0 < 8 by decide)
    have h : Probes 16 0 0 bdf 16 0 :=
      ⟨mem_probed_iff.2 (by decide), hnew, .inl rfl, by decide⟩
    have hwithin := (h.within_iff _).1 (hall _ _ _ _ _ _ h)
    exact absurd hwithin (by decide)

/-! ## A machine -/

/-- An MCFG table at address 0 with one entry, for a configuration space at `0xb0000000`. -/
def mcfgTable : Memory := Bytes.writeLE (Bytes.writeLE (fun _ => 0) 4 4 60) 44 8 0xb0000000

theorem numOfEntries_mcfgTable :
    (AcpiMcfgDescriptor.numOfEntries mcfgTable 0 : Method Unit ℕ) () = .ok 1 () := by
  rfl

theorem ecamBase_mcfgTable : ecamBase mcfgTable 0 = 0xb0000000 := by decide

theorem probe_within_iff_mcfgTable :
    ∃ self, (new mcfgTable 0 : Method Unit Pci) () = .ok self () ∧
      ∀ f bdf w o, Probes 15 31 f bdf w o → (accessSpan self bdf w o).Within self.ecmRange := by
  have hbase : ecamBase mcfgTable 0 + 2 ^ 28 ≤ 2 ^ 64 := by
    rw [ecamBase_mcfgTable]
    decide
  obtain ⟨self, hnew, hwithin, -, -⟩ := probe_within_iff () numOfEntries_mcfgTable hbase
  exact ⟨self, hnew, fun f bdf w o h => (hwithin 15 31 f bdf w o h).2.2 (by decide)⟩

/-- The first function of bus 16 is right behind the range. -/
theorem not_within_sixteenth :
    ∃ self, (new mcfgTable 0 : Method Unit Pci) () = .ok self () ∧
      ∃ bdf, Probes 16 0 0 bdf 16 0 ∧ ¬(accessSpan self bdf 16 0).Within self.ecmRange := by
  have hbase : ecamBase mcfgTable 0 + 2 ^ 28 ≤ 2 ^ 64 := by
    rw [ecamBase_mcfgTable]
    decide
  obtain ⟨bdf, hbdf⟩ := BusDeviceFunction.new_of_lt (show 16 < 256 by decide)
    (show 0 < 32 by decide) (show 0 < 8 by decide)
  have h : Probes 16 0 0 bdf 16 0 := ⟨mem_probed_iff.2 (by decide), hbdf, .inl rfl, by decide⟩
  refine ⟨_, new_eq numOfEntries_mcfgTable hbase, bdf, h, fun hwithin => ?_⟩
  exact absurd ((h.within_iff _).1 hwithin) (by decide)

end Pci

end Mushix
