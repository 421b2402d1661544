import Mushix.Lib.Bytes

/-!
# The memory map of the firmware

`MemoryMapHolder` (`uefi.rs`): the buffer that `GetMemoryMap` fills with memory descriptors,
and the iterator over it.
-/

namespace Mushix

open Bytes (Memory readLE)

/-- What the firmware says about memory. -/
inductive EfiMemoryType where
  | reserved
  | loaderCode
  | loaderData
  | bootServicesCode
  | bootServicesData
  | runtimeServicesCode
  | runtimeServicesData
  | conventionalMemory
  | unusableMemory
  | acpiReclaimMemory
  | acpiMemoryNvs
  | memoryMappedIo
  | memoryMappedIoPortSpace
  | palCode
  | persistentMemory
  deriving DecidableEq, Repr

/-- The discriminants count from 0. -/
def EfiMemoryType.discriminant (t : EfiMemoryType) : ℕ := t.ctorIdx

/-- The fields of `EfiMemoryDescriptor` that the program reads. -/
structure EfiMemoryDescriptor where
  /-- The discriminant of the memory type. -/
  memoryType : ℕ
  physicalStart : ℕ
  numberOfPages : ℕ
  deriving DecidableEq, Repr

/-- The number of bytes of a descriptor. -/
def EfiMemoryDescriptor.byteSize : ℕ := 40

/-- The number of bytes that there is room for in a `MemoryMapHolder`. -/
def memoryMapBufferSize : ℕ := 0x8000

/-- The descriptor at an offset of the buffer. -/
def EfiMemoryDescriptor.load (buffer : Memory) (ofs : ℕ) : EfiMemoryDescriptor :=
  { memoryType := readLE buffer ofs 8
    physicalStart := readLE buffer (ofs + 8) 8
    numberOfPages := readLE buffer (ofs + 24) 8 }

/-- `MemoryMapHolder`, of which only the bytes below `memoryMapSize` are meaningful. -/
structure MemoryMapHolder where
  memoryMapBuffer : Memory
  memoryMapSize : ℕ
  descriptorSize : ℕ

/-- An iterator over a memory map is an offset into its buffer. -/
structure MemoryMapIterator where
  map : MemoryMapHolder
  ofs : ℕ

/-- `next` returns the descriptor at the offset, and goes on by the size of a descriptor. -/
def MemoryMapIterator.next (self : MemoryMapIterator) :
    Option (EfiMemoryDescriptor × MemoryMapIterator) :=
  if self.map.memoryMapSize ≤ self.ofs then
    none
  else
    some (EfiMemoryDescriptor.load self.map.memoryMapBuffer self.ofs,
      { self with ofs := self.ofs + self.map.descriptorSize })

/-- The descriptors that the iterator yields, of which there are at most `fuel`. -/
def MemoryMapIterator.collect : ℕ → MemoryMapIterator → List EfiMemoryDescriptor
  | 0, _ => []
  | fuel + 1, self =>
    match self.next with
    | some (e, self) => e :: collect fuel self
    | none => []

namespace MemoryMapHolder

/-- An iterator in front of the first descriptor. -/
def iter (self : MemoryMapHolder) : MemoryMapIterator := { map := self, ofs := 0 }

/-- What a `for` loop over `iter()` visits. Every step advances by at least a byte, so there
are at most `memoryMapSize` steps. -/
def descriptors (self : MemoryMapHolder) : List EfiMemoryDescriptor :=
  self.iter.collect self.memoryMapSize

end MemoryMapHolder

namespace MemoryMapIterator

/-- From one multiple of the descriptor size on the iterator visits all others. -/
theorem collect_mul {map : MemoryMapHolder} (hpos : 0 < map.descriptorSize) {i n fuel : ℕ}
    (hsize : map.memoryMapSize = (i + n) * map.descriptorSize) (hfuel : n ≤ fuel) :
    collect fuel { map, ofs := i * map.descriptorSize } = (List.range' i n).map fun j =>
      EfiMemoryDescriptor.load map.memoryMapBuffer (j * map.descriptorSize) := by
  induction n generalizing i fuel with
  | zero =>
    have hend : map.memoryMapSize ≤ i * map.descriptorSize := hsize.le
    cases fuel <;> simp [collect, next, hend]
  | succ n ih =>
    obtain ⟨fuel, rfl⟩ : ∃ k, fuel = k + 1 := ⟨fuel - 1, by omega⟩
    have hinside : ¬map.memoryMapSize ≤ i * map.descriptorSize := by
      rw [hsize, Nat.not_le]
      exact Nat.mul_lt_mul_of_pos_right (by omega) hpos
    have hsize' : map.memoryMapSize = (i + 1 + n) * map.descriptorSize := by
      rw [hsize, Nat.add_assoc, Nat.add_comm 1 n]
    have hrest := ih hsize' (Nat.le_of_succ_le_succ hfuel)
    rw [Nat.add_mul, Nat.one_mul] at hrest
    rw [collect, next, if_neg hinside, List.range'_succ, List.map_cons]
    exact congrArg _ hrest

end MemoryMapIterator

namespace MemoryMapHolder

variable {map : MemoryMapHolder}

/-- The descriptors lie one behind the other in the buffer. -/
theorem descriptors_eq (hpos : 0 < map.descriptorSize)
    (hdvd : map.descriptorSize ∣ map.memoryMapSize) :
    map.descriptors = (List.range (map.memoryMapSize / map.descriptorSize)).map fun i =>
      EfiMemoryDescriptor.load map.memoryMapBuffer (i * map.descriptorSize) := by
  have hsize : map.memoryMapSize =
      (0 + map.memoryMapSize / map.descriptorSize) * map.descriptorSize := by
    rw [Nat.zero_add, Nat.div_mul_cancel hdvd]
  have hcollect := MemoryMapIterator.collect_mul hpos hsize (Nat.div_le_self _ _)
  rw [Nat.zero_mul] at hcollect
  rw [List.range_eq_range']
  exact hcollect

/-- Every descriptor was read from the buffer. -/
theorem physicalStart_lt (hpos : 0 < map.descriptorSize)
    (hdvd : map.descriptorSize ∣ map.memoryMapSize) {e : EfiMemoryDescriptor}
    (he : e ∈ map.descriptors) : e.physicalStart < 2 ^ 64 := by
  rw [descriptors_eq hpos hdvd] at he
  obtain ⟨i, -, rfl⟩ := List.mem_map.1 he
  exact Bytes.readLE_lt _ _ _

end MemoryMapHolder

end Mushix
