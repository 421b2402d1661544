import Mathlib.Logic.Function.Basic
import Mushix.Lib.Tiling
import Mushix.Usize

/-!
# Page tables

`Entry`, `Table` and `PML4` (`x86.rs`): the page tables of the program in physical memory. A
`&mut Table` and a `&mut Entry` are addresses. The methods work in every memory with 64-bit words
(`WordMemory`) in which there is a `Box::new` for tables (`TableSource`).

In `TableMemory` a word is what a map from addresses says, and a `BoxSource` says which address
each call of `Box::new` returns. As ghost state it records which words were stored to.

* `Entry.ensurePopulated`, `Entry.tableMut`, `Entry.setPage`: the methods of an entry;
* `PML4.createMapping`: the four nested loops over the pages of a range.
-/

namespace Mushix

/-- The number of bytes of a page, and of a table. -/
def pageSize : ℕ := 4096

/-- The bits of an entry that hold attributes. -/
def attrMask : BitVec 64 := 0xFFF

/-- The entry is in use. -/
def attrPresent : BitVec 64 := 1 <<< 0

/-- The page can be written to. -/
def attrWritable : BitVec 64 := 1 <<< 1

/-- Stores go through the cache into memory. -/
def attrWriteThrough : BitVec 64 := 1 <<< 3

/-- The page is not cached. -/
def attrCacheDisable : BitVec 64 := 1 <<< 4

/-- How a page is mapped: not at all, as memory, or as the memory of a device. -/
inductive PageAttr where
  | notPresent
  | readWriteKernel
  | readWriteIo
  deriving DecidableEq, Repr

/-- The attribute bits of an entry for a page. -/
def PageAttr.toU64 : PageAttr → BitVec 64
  | notPresent => 0
  | readWriteKernel => attrPresent ||| attrWritable
  | readWriteIo => attrPresent ||| attrWritable ||| attrWriteThrough ||| attrCacheDisable

/-- Memory in which tables can lie. -/
class WordMemory (σ : Type) where
  /-- The word at an address. -/
  word : σ → ℕ → BitVec 64
  /-- Store a word. -/
  store : ℕ → BitVec 64 → Method σ Unit

/-- An allocator for tables. -/
class TableSource (ρ : Type) (σ : outParam Type) where
  /-- `Box::new` of a table of zeros. -/
  newZeroed : ρ → Method σ ℕ

/-- The allocator behind `Box::new` for page tables: each call returns another page until there
are none left. -/
structure BoxSource where
  /-- The address that a call returns, by the number of calls before it. -/
  addr : ℕ → ℕ
  /-- The number of pages. -/
  supply : ℕ
  aligned : ∀ k < supply, addr k % 4096 = 0
  below : ∀ k < supply, addr k + 4096 ≤ 2 ^ 52
  fresh : ∀ j < supply, ∀ k < supply, addr j = addr k → j = k

/-- Pages one after the other. -/
def BoxSource.consecutive : BoxSource where
  addr k := 4096 * (k + 1)
  supply := 2 ^ 39
  aligned _ _ := Nat.mul_mod_right _ _
  below k hk := by omega
  fresh j _ k _ heq := by omega

/-- Physical memory, as far as page tables go. -/
structure TableMemory where
  /-- The word at an address. -/
  mem : ℕ → BitVec 64
  /-- The number of calls of `Box::new`. -/
  boxes : ℕ
  /-- The bytes that were stored to, the last store first. -/
  written : List Span

namespace TableMemory

/-- Store a word. -/
def store (a : ℕ) (value : BitVec 64) : Method TableMemory Unit :=
  modify fun s =>
    { s with mem := Function.update s.mem a value, written := ⟨a, a + 8⟩ :: s.written }

/-- Memory with a page of zeros. -/
def zeroPage (mem : ℕ → BitVec 64) (page : ℕ) : ℕ → BitVec 64 := fun a =>
  if page ≤ a ∧ a < page + pageSize then 0 else mem a

/-- `Box::new` of a table of zeros. -/
def newZeroed (box : BoxSource) : Method TableMemory ℕ := do
  let k := (← get).boxes
  if k < box.supply then
    let next := box.addr k
    modify fun s =>
      { mem := zeroPage s.mem next
        boxes := s.boxes + 1
        written := ⟨next, next + pageSize⟩ :: s.written }
    return next
  else
    throw (.panic "memory allocation of 4096 bytes failed")

instance : WordMemory TableMemory where
  word := TableMemory.mem
  store := TableMemory.store

instance : TableSource BoxSource TableMemory where
  newZeroed := TableMemory.newZeroed

end TableMemory

section Methods

variable {σ ρ : Type} [WordMemory σ] [TableSource ρ σ]

namespace Entry

/-- The word of an entry. -/
def readValue (self : ℕ) : Method σ (BitVec 64) := fun s => .ok (WordMemory.word s self) s

/-- Whether the entry is in use. -/
def isPresent (self : ℕ) : Method σ Bool := do
  return (← readValue self) &&& (1#64 <<< 0) != 0

/-- The table that an entry points to, without the attributes of the pointer. -/
def tableMut (self : ℕ) : Method σ ℕ := do
  if ← isPresent self then
    return ((← readValue self) &&& ~~~attrMask).toNat
  else
    throw (.err "Page not found")

/-- `set_page` lets an entry map a page, whose address must be aligned. -/
def setPage (self : ℕ) (phys : BitVec 64) (attr : PageAttr) : Method σ Unit := do
  if phys &&& attrMask ≠ 0 then
    throw (.err "phys is not aligned")
  else
    WordMemory.store self (phys ||| attr.toU64)

/-- `populate` lets an entry point to a new table of zeros. -/
def populate (box : ρ) (self : ℕ) : Method σ ℕ := do
  if ← isPresent self then
    throw (.err "page is already populated")
  else
    -- the pointer has the attributes of the kernel, whatever those of the mapping are
    let next ← TableSource.newZeroed box
    WordMemory.store self (BitVec.ofNat 64 next ||| PageAttr.readWriteKernel.toU64)
    return self

/-- `ensure_populated` populates an entry that is not in use. -/
def ensurePopulated (box : ρ) (self : ℕ) : Method σ ℕ := do
  if ← isPresent self then
    return self
  else
    populate box self

end Entry

namespace Table

/-- The lowest of the address bits that are the index at this level. -/
def indexShift (level : ℕ) : ℕ := (level - 1) * 9 + 12

/-- The nine bits of an address that are the index into a table of this level. -/
def calcIndex (level addr : ℕ) : ℕ := (addr >>> indexShift level) &&& 0b111111111

/-- The address of an entry of a table. -/
def entry (table index : ℕ) : ℕ := table + 8 * index

end Table

namespace PML4

/-- A new PML4 table has no entry in use. -/
def new (box : ρ) : Method σ ℕ := TableSource.newZeroed box

section CreateMapping

variable (box : ρ) (virtStart virtEnd phys : ℕ) (attr : PageAttr)

/-- The control flow that the four loops of `create_mapping` share: the body runs with an index
and `addr` and returns the new `addr`. It returns the value of `addr` at its end. The index
grows in every round, so there are at most 512 rounds. -/
def indexLoop (level : ℕ) (body : ℕ → ℕ → Method σ ℕ) : ℕ → ℕ → Method σ ℕ
  | 0, _ => throw (.panic "the loop does not end")
  | fuel + 1, addr => do
    let index := Table.calcIndex level addr
    let addr ← body index addr
    -- the end of the table, or the `addr >= virt_end` that breaks the loop
    if 1 <<< 9 ≤ index + 1 ∨ virtEnd ≤ addr then
      return addr
    else
      indexLoop level body fuel addr

/-- The body of the innermost loop. -/
def mapPage (table index addr : ℕ) : Method σ ℕ := do
  let pte := Table.entry table index
  -- `phys + addr - virt_start`, with the checks of a debug build
  let physAddr ← Usize.sub (← Usize.add phys addr) virtStart
  Entry.setPage pte (BitVec.ofNat 64 physAddr) attr
  -- `wrapping_add`
  return (addr + pageSize) % 2 ^ 64

/-- The body of the three outer loops around the loop inside it. -/
def enterTable (inner : ℕ → ℕ → Method σ ℕ) (table index addr : ℕ) : Method σ ℕ := do
  let table ← Entry.tableMut (← Entry.ensurePopulated box (Table.entry table index))
  inner table addr

/-- The loop over the entries of a page table. -/
def pageLoop (table : ℕ) : ℕ → Method σ ℕ :=
  indexLoop virtEnd 1 (mapPage virtStart phys attr table) 512

/-- The loop over the entries of a table at a higher level. -/
def tableLoop (level : ℕ) (inner : ℕ → ℕ → Method σ ℕ) (table : ℕ) : ℕ → Method σ ℕ :=
  indexLoop virtEnd level (enterTable box inner table) 512

/-- `create_mapping` maps the pages of a virtual range to physical pages one after the other. -/
def createMapping (self : ℕ) : Method σ Unit := do
  let pages := pageLoop virtStart virtEnd phys attr
  let tables := tableLoop box virtEnd 2 pages
  let directories := tableLoop box virtEnd 3 tables
  let _ ← tableLoop box virtEnd 4 directories self virtStart
  return ()

end CreateMapping

end PML4

end Methods

end Mushix
