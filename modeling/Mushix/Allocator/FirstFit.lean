import Mushix.Allocator.Header
import Mushix.Uefi

/-!
# The first-fit allocator

`FirstFitAllocator` (`allocator.rs`): the global allocator of the program. Its headers form a
list through `next_header` that begins at the static variable `first_header`.

* `allocWithOptions`, `dealloc`: the two methods of the allocator;
* `initWithMmap`: the headers are seeded from the memory map of the firmware.

A header whose `next_header` leads back to itself would keep the loop of `alloc_with_options`
running forever. The model counts the steps and faults after `2 ^ 64 + 1` of them.
-/

namespace Mushix

/-- `Layout`: sizes and alignments that `Layout::from_size_align` accepts. -/
structure Layout where
  size : ℕ
  align : ℕ
  isPowerOfTwo : align.isPowerOfTwo
  fits : size + align ≤ 2 ^ 63

/-- A page, aligned to its size. -/
def Layout.page4K : Layout where
  size := 4096
  align := 4096
  isPowerOfTwo := ⟨12, rfl⟩
  fits := by decide

namespace FirstFitAllocator

/-- The loop of `alloc_with_options` from the header at an address on. -/
def allocLoop (layout : Layout) : ℕ → ℕ → Method Heap ℕ
  | 0, _ => throw (.panic "the loop does not end")
  | fuel + 1, header => do
    if header = 0 then
      return 0
    else
      match ← Header.provide header layout.size layout.align with
      | some p => return p
      | none => allocLoop layout fuel (← Header.get header).nextHeader

/-- `alloc_with_options`, with 0 for the null pointer. -/
def allocWithOptions (layout : Layout) : Method Heap ℕ := do
  allocLoop layout (2 ^ 64 + 1) (← get).firstHeader

/-- `dealloc` marks the block in front of the pointer as free, and merges it with none. -/
def dealloc (ptr : ℕ) : Method Heap Unit := do
  let region ← Header.fromAllocatedRegion ptr
  Header.modify region (Header.setIsAllocated false)

/-- The end of `add_free_from_descriptor`: a free block becomes the first of the list. -/
def addFree (startAddr size : ℕ) : Method Heap Unit := do
  let header ← Header.newFromAddr startAddr
  Header.modify header (Header.setNextHeader 0)
  Header.modify header (Header.setIsAllocated false)
  Header.modify header (Header.setSize size)
  let prevLast := (← get).firstHeader
  modify fun s => { s with firstHeader := header }
  Header.modify (← get).firstHeader (Header.setNextHeader prevLast)

/-- `add_free_from_descriptor` puts the memory of a descriptor in front of the list, without the
page at address 0 and unless it is a single page. -/
def addFreeFromDescriptor (desc : EfiMemoryDescriptor) : Method Heap Unit := do
  let startAddr := desc.physicalStart
  let size ← Usize.mul desc.numberOfPages 4096
  -- the page at address 0 is left out; `saturating_sub`
  let (startAddr, size) :=
    if startAddr = 0 then (startAddr + 4096, size - 4096) else (startAddr, size)
  if size ≤ 4096 then
    return ()
  else
    addFree startAddr size

/-- The loop of `init_with_mmap`. -/
def initLoop : List EfiMemoryDescriptor → Method Heap Unit
  | [] => return ()
  | e :: es => do
    if e.memoryType ≠ EfiMemoryType.conventionalMemory.discriminant then
      initLoop es
    else
      addFreeFromDescriptor e
      initLoop es

/-- `init_with_mmap` adds the conventional memory of the map, one descriptor after the other. -/
def initWithMmap (memoryMap : MemoryMapHolder) : Method Heap Unit :=
  initLoop memoryMap.descriptors

end FirstFitAllocator

end Mushix
