import Mathlib.Data.BitVec
import Mushix.Lib.Packed

/-!
# Descriptor tables

The tables from which the processor takes the handler of an interrupt and its stack (`x86.rs`),
as the program stores them and as the processor reads them.

* `IdtDescriptor`, `TaskStateSegment64Inner`, `Gdt`: the tables and their bytes;
* `Gate.read`, `tssBase`, `interruptStack`: what the processor reads;
* `Gate.read_eq`, `tssBase_eq`, `interruptStack_eq`: it reads what was stored.
-/

namespace Mushix.X86

open Bytes (Memory readLE toLE)
open Packed (Stores)

/-! ## Gates -/

/-- Whether there is a handler, and who may call it by an instruction. -/
inductive IdtAttr where
  | notpresent
  | intGateDPL0
  | intGateDPL3
  deriving DecidableEq, Repr

/-- The attribute byte of an entry, which is a sum of the bits `BIT_FLAGS_INTGATE`,
`BIT_FLAGS_PRESENT`, `BIT_FLAGS_DPL0` and `BIT_FLAGS_DPL3`. -/
def IdtAttr.toByte : IdtAttr → BitVec 8
  | notpresent => 0
  | intGateDPL0 => 0b00001110 ||| 0b10000000 ||| 0 <<< 5
  | intGateDPL3 => 0b00001110 ||| 0b10000000 ||| 3 <<< 5

/-- An entry of the interrupt descriptor table, with the address of the handler in three parts. -/
structure IdtDescriptor where
  offsetLow : BitVec 16
  segmentSelector : BitVec 16
  istIndex : BitVec 8
  attr : IdtAttr
  offsetMid : BitVec 16
  offsetHigh : BitVec 32
  reserved : BitVec 32
  deriving DecidableEq, Repr

namespace IdtDescriptor

/-- `new`; the function is given by its address. -/
def new (segmentSelector : BitVec 16) (istIndex : BitVec 8) (attr : IdtAttr) (f : BitVec 64) :
    IdtDescriptor where
  offsetLow := f.setWidth 16
  offsetMid := (f >>> 16).setWidth 16
  offsetHigh := (f >>> 32).setWidth 32
  segmentSelector := segmentSelector
  istIndex := istIndex
  attr := attr
  reserved := 0

/-- The bytes of the packed structure. -/
def bytes (d : IdtDescriptor) : List (BitVec 8) :=
  toLE 2 d.offsetLow.toNat ++ (toLE 2 d.segmentSelector.toNat ++ (toLE 1 d.istIndex.toNat ++
    (toLE 1 d.attr.toByte.toNat ++ (toLE 2 d.offsetMid.toNat ++ (toLE 4 d.offsetHigh.toNat ++
      toLE 4 d.reserved.toNat)))))

/-- `size_of::<IdtDescriptor>()`, as it is asserted. -/
theorem length_bytes (d : IdtDescriptor) : d.bytes.length = 16 := by simp [bytes]

end IdtDescriptor

/-- A gate of the interrupt descriptor table, as the processor reads it. -/
@[ext]
structure Gate where
  offset : ℕ
  selector : ℕ
  ist : ℕ
  kind : ℕ
  dpl : ℕ
  present : Bool
  deriving DecidableEq, Repr

/-- The gate in the sixteen bytes from `a` on. -/
def Gate.read (m : Memory) (a : ℕ) : Gate where
  offset := readLE m a 2 + 2 ^ 16 * readLE m (a + 6) 2 + 2 ^ 32 * readLE m (a + 8) 4
  selector := readLE m (a + 2) 2
  ist := readLE m (a + 4) 1 % 8
  kind := readLE m (a + 5) 1 % 16
  dpl := readLE m (a + 5) 1 / 32 % 4
  present := readLE m (a + 5) 1 / 128 == 1

variable {m : Memory} {a : ℕ}

/-- The parts of an address of 64 bits. -/
theorem parts_sum (f : BitVec 64) :
    (f.setWidth 16).toNat + 2 ^ 16 * ((f >>> 16).setWidth 16).toNat +
      2 ^ 32 * ((f >>> 32).setWidth 32).toNat = f.toNat := by
  have hf := f.isLt
  simp only [BitVec.toNat_setWidth, BitVec.toNat_ushiftRight, Nat.shiftRight_eq_div_pow]
  omega

/-- The processor reads the handler, the segment and the stack that the descriptor was made of. -/
theorem Gate.read_eq {selector : BitVec 16} {ist : BitVec 8} {attr : IdtAttr} {f : BitVec 64}
    (h : Stores m a (IdtDescriptor.new selector ist attr f).bytes) :
    Gate.read m a =
      { offset := f.toNat
        selector := selector.toNat
        ist := ist.toNat % 8
        kind := attr.toByte.toNat % 16
        dpl := attr.toByte.toNat / 32 % 4
        present := attr.toByte.toNat / 128 == 1 } := by
  simp only [IdtDescriptor.bytes, Packed.Stores.append_iff, Bytes.length_toLE, Nat.add_assoc,
    Nat.reduceAdd] at h
  obtain ⟨hlow, hselector, hist, hattr, hmid, hhigh, -⟩ := h
  have hlow := hlow.readLE_toNat (by decide)
  have hselector := hselector.readLE_toNat (by decide)
  have hist := hist.readLE_toNat (by decide)
  have hattr := hattr.readLE_toNat (by decide)
  have hmid := hmid.readLE_toNat (by decide)
  have hhigh := hhigh.readLE_toNat (by decide)
  rw [Gate.read, hlow, hselector, hist, hattr, hmid, hhigh]
  exact Gate.ext (parts_sum f) rfl rfl rfl rfl rfl

/-! ## Stacks -/

/-- The bytes of an array of `u64`. -/
def wordBytes (w : BitVec 64) : List (BitVec 8) := toLE 8 w.toNat

/-- A task state segment: the stacks that the processor switches to. -/
structure TaskStateSegment64Inner where
  reserved0 : BitVec 32
  rsp : Vector (BitVec 64) 3
  ist : Vector (BitVec 64) 8
  reserved1 : Vector (BitVec 16) 5
  ioMapBaseAddr : BitVec 16

namespace TaskStateSegment64Inner

/-- The segment that `TaskStateSegment64::new` makes of the stacks. -/
def new (rsp0 : BitVec 64) (ist : Vector (BitVec 64) 8) : TaskStateSegment64Inner where
  reserved0 := 0
  rsp := #v[rsp0, 0, 0]
  ist := ist
  reserved1 := Vector.replicate 5 0
  ioMapBaseAddr := 0

/-- The bytes of the packed structure. -/
def bytes (t : TaskStateSegment64Inner) : List (BitVec 8) :=
  toLE 4 t.reserved0.toNat ++ (t.rsp.toList.flatMap wordBytes ++ (t.ist.toList.flatMap wordBytes ++
    (t.reserved1.toList.flatMap (fun h => toLE 2 h.toNat) ++ toLE 2 t.ioMapBaseAddr.toNat)))

/-- `size_of::<TaskStateSegment64Inner>()`, as it is asserted. -/
def size : ℕ := 104

theorem length_bytes (t : TaskStateSegment64Inner) : t.bytes.length = size := by
  simp [bytes, wordBytes, List.length_flatMap, size]

end TaskStateSegment64Inner

/-- The stack number `n`, from 1 to 7, of the task state segment at `tss`. -/
def interruptStack (m : Memory) (tss n : ℕ) : ℕ := readLE m (tss + 0x24 + 8 * (n - 1)) 8

/-- The processor finds the stacks behind the first word of the array. -/
theorem interruptStack_eq {t : TaskStateSegment64Inner} (h : Stores m a t.bytes) {n : ℕ}
    (hpos : 0 < n) (hn : n < 8) : interruptStack m a n = t.ist[n].toNat := by
  simp only [TaskStateSegment64Inner.bytes, Packed.Stores.append_iff] at h
  obtain ⟨-, -, hist, -, -⟩ := h
  have hrsp : (t.rsp.toList.flatMap wordBytes).length = 24 := by
    simp [wordBytes, List.length_flatMap]
  rw [Bytes.length_toLE, hrsp] at hist
  have hget : t.ist.toList[n]? = some t.ist[n] := by simp [hn]
  have hword := hist.element (k := 8) (fun w => Bytes.length_toLE 8 w.toNat) hget
  rw [interruptStack, show a + 0x24 + 8 * (n - 1) = a + 4 + 24 + 8 * n by omega]
  exact hword.readLE_toNat (by decide)

/-! ## Segments -/

/-- What a segment of the kernel is for. -/
inductive GdtAttr where
  | kernelCode
  | kernelData
  deriving DecidableEq, Repr

/-- The word of a segment, which is a sum of the bits from `BIT_TYPE_CODE` to `BIT_DS_WRITEABLE`. -/
def GdtAttr.toWord : GdtAttr → BitVec 64
  | kernelCode => 0b11 <<< 43 ||| 1 <<< 47 ||| 1 <<< 53 ||| 1 <<< 53
  | kernelData => 0b10 <<< 43 ||| 1 <<< 47 ||| 1 <<< 41

/-- The descriptor of a task state segment, which takes two entries of the table. -/
structure TaskStateSegment64Descriptor where
  limitLow : BitVec 16
  baseLow : BitVec 16
  baseMidLow : BitVec 8
  attr : BitVec 16
  baseMidHigh : BitVec 8
  baseHigh : BitVec 32
  reserved : BitVec 32
  deriving DecidableEq, Repr

namespace TaskStateSegment64Descriptor

/-- `new` spreads the address of the segment over the fields of the descriptor. -/
def new (baseAddr : BitVec 64) : TaskStateSegment64Descriptor where
  limitLow := BitVec.ofNat 16 TaskStateSegment64Inner.size
  baseLow := (baseAddr &&& 0xFFFF).setWidth 16
  baseMidLow := ((baseAddr >>> 16) &&& 0xFF).setWidth 8
  attr := 0b1000_0000_1000_1001
  baseMidHigh := ((baseAddr >>> 24) &&& 0xFF).setWidth 8
  baseHigh := ((baseAddr >>> 32) &&& 0xffffffff).setWidth 32
  reserved := 0

/-- The bytes of the packed structure. -/
def bytes (d : TaskStateSegment64Descriptor) : List (BitVec 8) :=
  toLE 2 d.limitLow.toNat ++ (toLE 2 d.baseLow.toNat ++ (toLE 1 d.baseMidLow.toNat ++
    (toLE 2 d.attr.toNat ++ (toLE 1 d.baseMidHigh.toNat ++ (toLE 4 d.baseHigh.toNat ++
      toLE 4 d.reserved.toNat)))))

end TaskStateSegment64Descriptor

/-- `Gdt`; a `GdtSegmentDescriptor` is its `value`. -/
structure Gdt where
  nullSegment : BitVec 64
  kernelCodeSegment : BitVec 64
  kernelDataSegment : BitVec 64
  taskStateSegment : TaskStateSegment64Descriptor
  deriving DecidableEq, Repr

namespace Gdt

/-- The table that `GdtWrapper::default` makes. -/
def new (tss : BitVec 64) : Gdt where
  nullSegment := 0
  kernelCodeSegment := GdtAttr.kernelCode.toWord
  kernelDataSegment := GdtAttr.kernelData.toWord
  taskStateSegment := .new tss

/-- The bytes of the descriptors in front of that of the task state segment. -/
def segmentBytes (g : Gdt) : List (BitVec 8) :=
  wordBytes g.nullSegment ++ (wordBytes g.kernelCodeSegment ++ wordBytes g.kernelDataSegment)

/-- The bytes of the packed structure. -/
def bytes (g : Gdt) : List (BitVec 8) := g.segmentBytes ++ g.taskStateSegment.bytes

/-- `size_of::<Gdt>()`, as it is asserted. -/
def size : ℕ := 40

theorem length_segmentBytes (g : Gdt) : g.segmentBytes.length = 24 := by
  simp [segmentBytes, wordBytes]

theorem length_bytes (g : Gdt) : g.bytes.length = size := by
  simp [bytes, length_segmentBytes, TaskStateSegment64Descriptor.bytes, size]

end Gdt

/-- The base in the descriptor of a task state segment, as the processor reads it. -/
def tssBase (m : Memory) (a : ℕ) : ℕ :=
  readLE m (a + 2) 2 + 2 ^ 16 * readLE m (a + 4) 1 + 2 ^ 24 * readLE m (a + 7) 1 +
    2 ^ 32 * readLE m (a + 8) 4

/-- The limit in the descriptor of a task state segment, whose unit is the byte, or the page when
the granularity bit is set. -/
def tssLimit (m : Memory) (a : ℕ) : ℕ :=
  let limit := readLE m a 2 + 2 ^ 16 * (readLE m (a + 6) 1 % 16)
  if readLE m (a + 6) 1 / 128 = 1 then limit * 4096 + 4095 else limit

/-- The type, the privilege level and the present bit of a segment. -/
def accessByte (m : Memory) (a : ℕ) : ℕ := readLE m (a + 5) 1

/-- The parts of a base address. -/
theorem baseParts_sum (base : BitVec 64) :
    ((base &&& 0xFFFF).setWidth 16).toNat + 2 ^ 16 * (((base >>> 16) &&& 0xFF).setWidth 8).toNat +
      2 ^ 24 * (((base >>> 24) &&& 0xFF).setWidth 8).toNat +
      2 ^ 32 * (((base >>> 32) &&& 0xffffffff).setWidth 32).toNat = base.toNat := by
  have hbase := base.isLt
  have h16 (x : ℕ) : x &&& 65535 = x % 2 ^ 16 := Nat.and_two_pow_sub_one_eq_mod x 16
  have h8 (x : ℕ) : x &&& 255 = x % 2 ^ 8 := Nat.and_two_pow_sub_one_eq_mod x 8
  have h32 (x : ℕ) : x &&& 4294967295 = x % 2 ^ 32 := Nat.and_two_pow_sub_one_eq_mod x 32
  simp only [BitVec.toNat_setWidth, BitVec.toNat_and, BitVec.toNat_ushiftRight,
    Nat.shiftRight_eq_div_pow, BitVec.reduceToNat, h16, h8, h32]
  omega

/-- What the processor reads in the descriptor of the task state segment. -/
theorem taskStateSegment_eq {base : BitVec 64}
    (h : Stores m a (TaskStateSegment64Descriptor.new base).bytes) :
    tssBase m a = base.toNat ∧ TaskStateSegment64Inner.size ≤ tssLimit m a ∧
      accessByte m a = 0x89 := by
  simp only [TaskStateSegment64Descriptor.bytes, Packed.Stores.append_iff, Bytes.length_toLE,
    Nat.add_assoc, Nat.reduceAdd] at h
  obtain ⟨hlimit, hlow, hmidLow, hattr, hmidHigh, hhigh, -⟩ := h
  have hlimit := hlimit.readLE_toNat (by decide)
  have hlow := hlow.readLE_toNat (by decide)
  have hmidLow := hmidLow.readLE_toNat (by decide)
  have hmidHigh := hmidHigh.readLE_toNat (by decide)
  have hhigh := hhigh.readLE_toNat (by decide)
  -- the two bytes of the attributes
  rw [show toLE 2 (TaskStateSegment64Descriptor.new base).attr.toNat = [0x89, 0x80] by
    simp [TaskStateSegment64Descriptor.new, toLE]] at hattr
  obtain ⟨haccess, hgranularity⟩ := Packed.Stores.cons_iff.1 hattr
  have hgranularity := (Packed.Stores.cons_iff.1 hgranularity).1
  have haccess' : accessByte m a = 0x89 := by
    rw [accessByte, readLE, haccess]
    rfl
  have hgranularity' : readLE m (a + 6) 1 = 0x80 := by
    rw [readLE, hgranularity]
    rfl
  refine ⟨?_, ?_, haccess'⟩
  · rw [tssBase, hlow, hmidLow, hmidHigh, hhigh]
    exact baseParts_sum base
  · have hsize : (TaskStateSegment64Descriptor.new base).limitLow.toNat = 104 := rfl
    rw [tssLimit, hgranularity', hlimit, hsize]
    decide

end Mushix.X86
