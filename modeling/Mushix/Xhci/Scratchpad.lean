import Mushix.Allocator.Boxes
import Mushix.Xhci.Registers

/-!
# Scratchpad buffers

`ScratchpadBuffers::alloc` (`xhci.rs`) gives the controller `n` buffers of a page, and a table with
their addresses. It asks the allocator for blocks that are aligned to a page, but then makes a
`Box` from each of them, which is a copy in another block with the alignment of its elements.

* `ScratchpadBuffers.alloc`: the method;
* `ScratchpadBuffers.Placed`: what the controller needs;
* `CopiesAligned`: the condition on the blocks of the heap, which says from where first fit takes
  the copies;
* `ScratchpadBuffers.alloc_placed_iff`: the buffers and the table are placed exactly under this
  condition.

`Layout::from_size_align` accepts every page size, so the `Err` of the loop is never returned. The
model leaves out that it would drop the table and the buffers.
-/

namespace Mushix

open Bytes (Memory readArray writeLE)
open Method (ofOption ofResult)
open HeapSystem (Owns Same allocateOr storeWord)

/-- `page_size()` of `OperationalRegisters`, from the value of the register `pagesize`. -/
def OperationalRegisters.pageSize (pagesize : BitVec 32) : Except String ℕ :=
  let pageSizeBits := pagesize &&& 0xffff#32
  if pageSizeBits.cpop ≠ 1 then
    .error "Invalid page size bits"
  else
    .ok (1 <<< (pageSizeBits.ctz.toNat + 12))

/-- A page size is a power of two from 4096 on. -/
theorem OperationalRegisters.pageSize_eq_ok {pagesize : BitVec 32} {n : ℕ}
    (h : pageSize pagesize = .ok n) : ∃ k < 16, n = 2 ^ (k + 12) := by
  rw [pageSize] at h
  split at h
  case isTrue => cases h
  case isFalse hone =>
    cases h
    refine ⟨(pagesize &&& 0xffff#32).ctz.toNat, ?_, Nat.one_shiftLeft _⟩
    have hne : pagesize &&& 0xffff#32 ≠ 0#32 := by
      intro hzero
      rw [hzero] at hone
      exact hone (by decide)
    -- the lowest bit that is set is one of the mask
    have hbit := BitVec.getLsbD_true_ctz_of_ne_zero hne
    rw [BitVec.getLsbD_and, Bool.and_eq_true, BitVec.getLsbD_ofNat, Bool.and_eq_true] at hbit
    have hmask : (2 ^ 16 - 1).testBit (pagesize &&& 0xffff#32).ctz.toNat = true := hbit.2.2
    rw [Nat.testBit_two_pow_sub_one] at hmask
    exact of_decide_eq_true hmask

/-- The page size that all controllers support. -/
theorem OperationalRegisters.pageSize_one : pageSize 1 = .ok 4096 := by decide +kernel

/-- The scratchpad buffers of a controller, and the table in which it finds them. -/
structure ScratchpadBuffers where
  table : BoxedSlice
  bufs : BoxVec

namespace ScratchpadBuffers

/-- The body of the loop of `alloc`, for the entry of the table at the address `sb`. -/
def allocBuf (growth : VecGrowth) (pageSize sb : ℕ) (bufs : BoxVec) :
    Method HeapSystem BoxVec := do
  let layout ← ofOption (.err "couldnt allocated scratchpad buffer")
    (Layout.fromSizeAlign pageSize pageSize)
  -- `slice::from_raw_parts` does not accept the null pointer
  let buf ← allocateOr "unsafe precondition(s) violated: slice::from_raw_parts" layout
  let buf ← BoxedSlice.ofSlice 1 1 buf pageSize
  storeWord sb buf.ptr
  bufs.push growth buf

/-- The loop of `alloc` over the entries of the table from the address `sb` on. -/
def bufLoop (growth : VecGrowth) (pageSize : ℕ) : ℕ → ℕ → BoxVec → Method HeapSystem BoxVec
  | 0, _, bufs => return bufs
  | n + 1, sb, bufs => do
    let bufs ← allocBuf growth pageSize sb bufs
    bufLoop growth pageSize n (sb + 8) bufs

/-- `alloc` allocates as many buffers as the controller asks for, and a table with their addresses.
-/
def alloc (growth : VecGrowth) (capRegs : CapabilityRegisters) (pagesize : BitVec 32) :
    Method HeapSystem ScratchpadBuffers := do
  let pageSize ← ofResult (OperationalRegisters.pageSize pagesize)
  let numScratchpadBufs := max capRegs.numScratchpadBufs 1
  let layout ← ofOption (.err "Failed to allocate scratchpad buffer table")
    (Layout.fromSizeAlign (8 * numScratchpadBufs) pageSize)
  let table ← allocateOr "unsafe precondition(s) violated: slice::from_raw_parts" layout
  let table ← BoxedSlice.ofSlice 8 8 table numScratchpadBufs
  let bufs ← bufLoop growth pageSize table.len table.ptr BoxVec.new
  return { table, bufs }

end ScratchpadBuffers

/-! ## The blocks of the copies -/

/-- The block that the copy of a buffer is taken from, and the vector and the blocks afterwards. -/
def bufTake (growth : VecGrowth) (pageSize : ℕ) (bufs : BoxVec) (bs : List Block) :
    Option (Block × BoxVec × List Block) := do
  let layout ← Layout.fromSizeAlign pageSize pageSize
  let (_, bs) ← layout.take bs
  let (b, bs) ← copyTake 1 1 pageSize bs
  let (bufs, bs) ← bufs.pushTake growth bs
  return (b, bufs, bs)

/-- The blocks that the copies of `n` buffers are taken from. -/
def bufSources (growth : VecGrowth) (pageSize : ℕ) : ℕ → BoxVec → List Block → Option (List Block)
  | 0, _, _ => return []
  | n + 1, bufs, bs => do
    let (b, bufs, bs) ← bufTake growth pageSize bufs bs
    let cs ← bufSources growth pageSize n bufs bs
    return b :: cs

/-- The block that the copy of the table is taken from, and the blocks of the buffers. -/
def copySources (growth : VecGrowth) (pageSize n : ℕ) (bs : List Block) :
    Option (Block × List Block) := do
  let layout ← Layout.fromSizeAlign (8 * n) pageSize
  let (_, bs) ← layout.take bs
  let (b, bs) ← copyTake 8 8 n bs
  let cs ← bufSources growth pageSize n BoxVec.new bs
  return (b, cs)

/-- Where there are blocks for all copies, the ones of the buffers end at a multiple of the page
size, and the one of the table ends at a multiple of 64 when the size of its copy, rounded up as
the allocator does, is counted from there. -/
def CopiesAligned (growth : VecGrowth) (pageSize n : ℕ) (bs : List Block) : Prop :=
  ∀ t cs, copySources growth pageSize n bs = some (t, cs) →
    (t.addr + t.size) % 64 = max (2 ^ Nat.clog 2 (8 * n)) headerSize % 64 ∧
    ∀ c ∈ cs, (c.addr + c.size) % pageSize = 0

/-! ## What the calls do -/

/-- A memory map with sixteen pages of conventional memory and nothing else. -/
def MemoryMapHolder.sixteenPages : MemoryMapHolder where
  memoryMapBuffer :=
    let buffer := writeLE (fun _ => 0) 0 8 EfiMemoryType.conventionalMemory.discriminant
    let buffer := writeLE buffer 8 8 0x100000
    writeLE buffer 24 8 16
  memoryMapSize := 48
  descriptorSize := 48

theorem MemoryMapHolder.sixteenPages_usable : sixteenPages.Usable where
  descriptorSize_pos := by decide
  aligned := by decide
  below := by decide
  apart := by decide

namespace ScratchpadBuffers

variable {seed : Seeding} {growth : VecGrowth} {pageSize n : ℕ} {s : HeapSystem} {bs : List Block}
  {s₀ : HeapSystem} {t : Allocation} {page : Layout} {bufs : BoxVec} {ps : List ℕ}

/-- The state of the loop: the first entries of the table `t` are the pointers `ps`, and they are
allocations of their own, next to the table and the vector. Outside of the heap nothing has changed
since `s₀`. -/
structure Filled (seed : Seeding) (s₀ : HeapSystem) (t : Allocation) (page : Layout)
    (bs : List Block) (bufs : BoxVec) (ps : List ℕ) (s : HeapSystem) : Prop where
  owns : ∃ vs, bufs.Holds vs ∧ Owns seed bs (vs ++ t :: ps.map (⟨·, page⟩)) s
  len_le : bufs.len ≤ bufs.cap
  table : readArray s.heap.mem t.ptr 8 ps.length = ps
  same : Same seed [] s₀ s

/-- One buffer more. -/
theorem allocBuf_follows (hpage : Layout.array 1 1 pageSize = some page) (hpos : 0 < pageSize)
    (ht : 8 * (ps.length + 1) ≤ t.layout.size) (h : Filled seed s₀ t page bs bufs ps s) :
    Method.Follows (bufTake growth pageSize bufs bs)
      (fun r v s' => v = r.2.1 ∧ r.1.Granular ∧ r.1.Serves page.demand ∧
        Filled seed s₀ t page r.2.2 v (ps ++ [r.1.place page.demand]) s')
      (allocBuf growth pageSize (t.ptr + 8 * ps.length) bufs) s := by
  obtain ⟨vs, hbufs, howns⟩ := h.owns
  refine (Method.Follows.ofOption _ _ s).bind ?_
  rintro layout _ _ ⟨hlayout, rfl, rfl⟩
  have hsize := (Layout.fromSizeAlign_eq_some hlayout).1
  -- the aligned block that nobody owns afterwards
  refine (howns.allocateOr (hsize.symm ▸ hpos) _).bind ?_
  rintro ⟨b₀, bs₁⟩ raw s₁ ⟨_, _, _, howns₁, hsame₁⟩
  -- its copy, whose address goes into the table
  refine (BoxedSlice.ofSlice_follows howns₁.leak (by omega) raw).bind ?_
  rintro ⟨b, bs₂⟩ ⟨q, len⟩ s₂ ⟨page', hpage', _, hq, hgranular, hserves, howns₂, hsame₂⟩
  obtain rfl : page' = page := Option.some.inj (hpage'.symm.trans hpage)
  obtain rfl : q = b.place page'.demand := hq
  have hlt : b.place page'.demand < 2 ^ 64 := howns₂.ptr_lt List.mem_cons_self
  have hword : (⟨t.ptr + 8 * ps.length, t.ptr + 8 * ps.length + 8⟩ : Span).Within t.bytes := by
    refine ⟨Nat.le_add_right _ _, ?_⟩
    show t.ptr + 8 * ps.length + 8 ≤ t.ptr + t.layout.size
    omega
  have hfront : Owns seed bs₂ (t :: ⟨b.place page'.demand, page'⟩ :: (vs ++ ps.map (⟨·, page'⟩)))
      s₂ := howns₂.perm ((List.perm_middle.cons _).trans (.swap ..))
  refine Method.Follows.returns_bind (hfront.storeWord (b.place page'.demand) hword) ?_
  rintro - s₃ ⟨rfl, howns₃, hsame₃⟩
  have hback : Owns seed bs₂ (vs ++ t :: (ps ++ [b.place page'.demand]).map (⟨·, page'⟩))
      (s₂.setMem (writeLE s₂.heap.mem (t.ptr + 8 * ps.length) 8 (b.place page'.demand))) := by
    refine howns₃.perm ?_
    rw [List.map_append, List.map_singleton]
    refine List.Perm.trans ?_ List.perm_middle.symm
    rw [← List.append_assoc]
    exact (List.perm_append_singleton _ _).symm.cons t
  have hpush := BoxVec.push_follows growth hbufs h.len_le hback
    ⟨b.place page'.demand, len⟩
  refine hpush.map ?_
  rintro ⟨v', bs₄⟩ v s₄ ⟨rfl, hlen, hroom, a, hv, howns₄, hsame₄⟩
  have hsame : Same seed [] s₀ s₄ :=
    (((h.same.trans (hsame₁.subset (List.nil_subset _))).trans
      (hsame₂.subset (List.nil_subset _))).trans (hsame₃.subset (List.nil_subset _))).trans
      (hsame₄.subset (List.nil_subset _))
  refine ⟨rfl, hgranular, hserves, ⟨[a], hv, howns₄⟩, hroom, ?_, hsame⟩
  -- the words of the table before the new one are still there
  have hold : readArray s₂.heap.mem t.ptr 8 ps.length = ps := by
    have ht' : 8 * ps.length ≤ t.layout.size := by omega
    rw [hsame₂.readArray_eq (by simp) ht', hsame₁.readArray_eq (by simp) ht', h.table]
  rw [List.length_append, List.length_singleton, hsame₄.readArray_eq List.mem_cons_self ht]
  show readArray (writeLE s₂.heap.mem _ 8 _) t.ptr 8 (ps.length + 1) = _
  rw [Bytes.readArray_writeLE _ _ _ hlt, hold]

/-- The loop fills the table with the pointers of the copies. -/
theorem bufLoop_follows (hpage : Layout.array 1 1 pageSize = some page) (hpos : 0 < pageSize)
    (ht : t.layout.size = 8 * (ps.length + n)) (h : Filled seed s₀ t page bs bufs ps s) :
    Method.Follows (bufSources growth pageSize n bufs bs)
      (fun cs v s' => cs.length = n ∧ (∀ c ∈ cs, c.Granular ∧ c.Serves page.demand) ∧
        ∃ bs', Filled seed s₀ t page bs' v (ps ++ cs.map (·.place page.demand)) s')
      (bufLoop growth pageSize n (t.ptr + 8 * ps.length) bufs) s := by
  induction n generalizing bs ps bufs s with
  | zero => exact Method.Returns.pure ⟨rfl, by simp, bs, by simpa using h⟩
  | succ n ih =>
    refine (allocBuf_follows hpage hpos (by omega) h).bind ?_
    rintro ⟨b, v', bs₁⟩ v s₁ ⟨rfl, hgranular, hserves, hfilled⟩
    have hlength : (ps ++ [b.place page.demand]).length = ps.length + 1 := by simp
    have hfilled' : Filled seed s₀ t page bs₁ v (ps ++ [b.place page.demand]) s₁ := hfilled
    have hrest := ih (by omega) hfilled'
    rw [hlength] at hrest
    refine hrest.map ?_
    rintro cs v' s₂ ⟨hcs, hparts, bs₂, hfilled₂⟩
    refine ⟨by simp [hcs], ?_, bs₂, by simpa using hfilled₂⟩
    intro c hc
    rcases List.mem_cons.1 hc with rfl | hc
    · exact ⟨hgranular, hserves⟩
    · exact hparts c hc

/-- There is a layout for the bytes of a page. -/
theorem array_page {pagesize : BitVec 32}
    (hpage : OperationalRegisters.pageSize pagesize = .ok pageSize) :
    ∃ page, Layout.array 1 1 pageSize = some page ∧ 0 < pageSize := by
  obtain ⟨k, hk, rfl⟩ := OperationalRegisters.pageSize_eq_ok hpage
  have hle : 2 ^ (k + 12) ≤ 2 ^ 27 := Nat.pow_le_pow_right (by decide) (by omega)
  have hfits : 1 * 2 ^ (k + 12) + 1 ≤ 2 ^ 63 := by omega
  obtain ⟨page, harray⟩ := Layout.exists_fromSizeAlign ⟨0, rfl⟩ hfits
  exact ⟨page, harray, Nat.two_pow_pos _⟩

/-- The method gives the controller a table with the pointers of the copies. -/
theorem alloc_follows {pagesize : BitVec 32}
    (hpage : OperationalRegisters.pageSize pagesize = .ok pageSize) (capRegs : CapabilityRegisters)
    (hn : n = max capRegs.numScratchpadBufs 1) (h : Owns seed bs [] s) :
    Method.Follows (copySources growth pageSize n bs)
      (fun r self s' => ∃ table page, Layout.array 8 8 n = some table ∧
        Layout.array 1 1 pageSize = some page ∧ self.table = ⟨r.1.place table.demand, n⟩ ∧
        r.1.Granular ∧ r.1.Serves table.demand ∧ r.2.length = n ∧
        (∀ c ∈ r.2, c.Granular ∧ c.Serves page.demand) ∧
        ∃ bs', Filled seed s ⟨self.table.ptr, table⟩ page bs' self.bufs
          (r.2.map (·.place page.demand)) s')
      (alloc growth capRegs pagesize) s := by
  subst hn
  have hn : 0 < max capRegs.numScratchpadBufs 1 := by omega
  obtain ⟨page, harray, hpos⟩ := array_page hpage
  have hresult : (ofResult (OperationalRegisters.pageSize pagesize) : Method HeapSystem ℕ) s =
      .ok pageSize s := by rw [hpage]; rfl
  refine Method.Follows.returns_bind (P := fun a s' => pageSize = a ∧ s = s')
    ⟨_, _, hresult, rfl, rfl⟩ ?_
  rintro _ _ ⟨rfl, rfl⟩
  refine (Method.Follows.ofOption _ _ _).bind ?_
  rintro layout _ _ ⟨hlayout, rfl, rfl⟩
  have hsize := (Layout.fromSizeAlign_eq_some hlayout).1
  -- the aligned block that nobody owns afterwards, and its copy
  refine (h.allocateOr (by omega) _).bind ?_
  rintro ⟨b₀, bs₁⟩ raw s₁ ⟨_, _, _, howns₁, hsame₁⟩
  refine (BoxedSlice.ofSlice_follows howns₁.leak (by omega) raw).bind ?_
  rintro ⟨b, bs₂⟩ table s₂ ⟨layout', htable, hlen, hptr, hgranular, hserves, howns₂, hsame₂⟩
  obtain ⟨q, len⟩ := table
  obtain rfl : len = max capRegs.numScratchpadBufs 1 := hlen
  obtain rfl : q = b.place layout'.demand := hptr
  have hempty : Filled seed s ⟨b.place layout'.demand, layout'⟩ page bs₂ BoxVec.new [] s₂ :=
    ⟨⟨[], .empty rfl, howns₂⟩, le_rfl, rfl, hsame₁.trans (hsame₂.subset (List.nil_subset _))⟩
  have hfull : layout'.size = 8 * (0 + max capRegs.numScratchpadBufs 1) := by
    rw [Nat.zero_add]
    exact (Layout.fromSizeAlign_eq_some htable).1
  refine (bufLoop_follows harray hpos hfull hempty).bind ?_
  rintro cs bufs s₃ ⟨hcs, hparts, hfilled⟩
  exact Method.Returns.pure
    ⟨layout', page, htable, harray, rfl, hgranular, hserves, hcs, hparts, hfilled⟩

/-! ## What the controller needs -/

/-- The pointers that are stored in the table. -/
def pointers (buffers : ScratchpadBuffers) (s : HeapSystem) : List ℕ :=
  readArray s.heap.mem buffers.table.ptr 8 buffers.table.len

/-- The table is aligned to 64 bytes, and its `n` pointers are those of aligned pages, which are
disjoint and stay allocated while nobody deallocates them. -/
structure Placed (buffers : ScratchpadBuffers) (pageSize n : ℕ) (s : HeapSystem) : Prop where
  length : (buffers.pointers s).length = n
  aligned : ∀ p ∈ buffers.pointers s, p % pageSize = 0
  apart : (buffers.pointers s).Pairwise fun p q =>
    (⟨p, p + pageSize⟩ : Span).Apart ⟨q, q + pageSize⟩
  allocated : ∀ actions, (∀ p ∈ buffers.pointers s, HeapAction.dealloc p ∉ actions) →
    ∃ bs, (Run.exec HeapSystem.step actions s).heap.Represents bs ∧
      ∀ p ∈ buffers.pointers s, ∃ b ∈ bs, b.isAllocated = true ∧ p = b.addr + headerSize ∧
        (⟨p, p + pageSize⟩ : Span).Within b.payload
  table_aligned : buffers.table.ptr % 64 = 0

/-- Apart from the alignment, a table that is filled has what the controller needs. -/
theorem Filled.placed_iff (h : Filled seed s₀ t page bs bufs ps s) (self : ScratchpadBuffers)
    (hptr : t.ptr = self.table.ptr)
    (hlen : ps.length = self.table.len) (hsize : page.size = pageSize) :
    self.pointers s = ps ∧ (self.Placed pageSize self.table.len s ↔
      (∀ p ∈ ps, p % pageSize = 0) ∧ self.table.ptr % 64 = 0) := by
  have hpointers : self.pointers s = ps := by
    rw [pointers, ← hptr, ← hlen]
    exact h.table
  refine ⟨hpointers, fun hplaced => ⟨?_, hplaced.table_aligned⟩, ?_⟩
  · rw [← hpointers]
    exact hplaced.aligned
  rintro ⟨haligned, htable⟩
  subst hsize
  -- the buffers are among the allocations that are owned
  obtain ⟨vs, -, hall⟩ := h.owns
  have howns : Owns seed bs (ps.map (⟨·, page⟩)) s :=
    hall.sublist ((List.sublist_cons_self _ _).trans (List.sublist_append_right _ _))
  constructor
  · rw [hpointers, hlen]
  · rwa [hpointers]
  · have hapart := List.pairwise_map.1 howns.pairwise_apart
    rw [hpointers]
    exact hapart
  · rw [hpointers]
    intro actions hkeep
    obtain ⟨bs', howns'⟩ := howns.exec actions (by simpa using hkeep)
    refine ⟨bs', howns'.represents, fun p hp => ?_⟩
    exact howns'.block (List.mem_map_of_mem hp)
  · exact htable

theorem page_size {k : ℕ} (hpage : Layout.array 1 1 (2 ^ (k + 12)) = some page) :
    page.size = 2 ^ (k + 12) :=
  (Layout.fromSizeAlign_eq_some hpage).1.trans (Nat.one_mul _)

/-- An array of bytes of a page is allocated as it is. -/
theorem need_page {k : ℕ} (hsize : page.size = 2 ^ (k + 12)) :
    page.demand.need = 2 ^ (k + 12) := by
  have hle : 2 ^ 5 ≤ 2 ^ (k + 12) := Nat.pow_le_pow_right (by decide) (by omega)
  rw [Layout.demand_need, hsize, Nat.clog_pow 2 _ (by decide)]
  exact Nat.max_eq_left hle

/-- The copy of a page is at the end of its block. -/
theorem place_page {k : ℕ} (hpage : Layout.array 1 1 (2 ^ (k + 12)) = some page) {b : Block}
    (hb : b.Granular) (hserves : b.Serves page.demand) :
    b.place page.demand + 2 ^ (k + 12) = b.addr + b.size := by
  have halign := (Layout.fromSizeAlign_eq_some hpage).2
  rw [← need_page (page_size hpage), Layout.place_add_need hb hserves (by omega)]

/-- The addresses of the copies are aligned exactly when their blocks end where they should. -/
theorem aligned_iff {k : ℕ} {table : Layout} {b : Block} {cs : List Block}
    (htable : Layout.array 8 8 n = some table) (hb : b.Granular) (hserves : b.Serves table.demand)
    (hpage : Layout.array 1 1 (2 ^ (k + 12)) = some page)
    (hparts : ∀ c ∈ cs, c.Granular ∧ c.Serves page.demand) :
    ((∀ p ∈ cs.map (·.place page.demand), p % 2 ^ (k + 12) = 0) ∧
      b.place table.demand % 64 = 0) ↔
    (b.addr + b.size) % 64 = max (2 ^ Nat.clog 2 (8 * n)) headerSize % 64 ∧
      ∀ c ∈ cs, (c.addr + c.size) % 2 ^ (k + 12) = 0 := by
  obtain ⟨hsize, halign⟩ := Layout.fromSizeAlign_eq_some htable
  have hend := Layout.place_add_need hb hserves (by omega)
  rw [Layout.demand_need, hsize] at hend
  rw [and_comm]
  refine and_congr (by omega) ?_
  simp only [List.forall_mem_map]
  refine forall₂_congr fun c hc => ?_
  obtain ⟨hgranular, hc⟩ := hparts c hc
  rw [← place_page hpage hgranular hc, Nat.add_mod_right]

/-- What the method does in a heap that consists of the blocks: the buffers are at the ends of the
blocks that their copies are taken from. -/
theorem alloc_follows_placed (growth : VecGrowth) {pagesize : BitVec 32}
    (hpage : OperationalRegisters.pageSize pagesize = .ok pageSize) (capRegs : CapabilityRegisters)
    (hn : n = max capRegs.numScratchpadBufs 1) (h : Owns seed bs [] s) :
    Method.Follows (copySources growth pageSize n bs)
      (fun r self s' =>
        self.pointers s' = r.2.map (fun c => c.addr + c.size - pageSize) ∧
        (self.Placed pageSize n s' ↔
          (r.1.addr + r.1.size) % 64 = max (2 ^ Nat.clog 2 (8 * n)) headerSize % 64 ∧
            ∀ c ∈ r.2, (c.addr + c.size) % pageSize = 0))
      (alloc growth capRegs pagesize) s := by
  apply (alloc_follows hpage capRegs hn h).imp
  rintro ⟨b, cs⟩ ⟨table', bufs⟩ s' ⟨table, page, htable, harray, rfl, hb, hserves, hlength, hparts,
    bs', hfilled⟩
  obtain ⟨k, -, rfl⟩ := OperationalRegisters.pageSize_eq_ok hpage
  have hlength' : (cs.map (·.place page.demand)).length = n := by simpa using hlength
  obtain ⟨hpointers, hplaced⟩ :=
    hfilled.placed_iff ⟨⟨b.place table.demand, n⟩, bufs⟩ rfl hlength' (page_size harray)
  refine ⟨?_, hplaced.trans (aligned_iff htable hb hserves harray hparts)⟩
  rw [hpointers]
  refine List.map_congr_left fun c hc => ?_
  rw [← place_page harray (hparts c hc).1 (hparts c hc).2, Nat.add_sub_cancel]

/-- In every reachable heap, for every page size that `page_size()` returns and every number of
buffers: the table and the buffers that the method returns are what the controller needs exactly
when the copies are taken from blocks that end where they should. -/
theorem alloc_placed_iff (map : MemoryMapHolder) (hmap : map.Usable) (mem : Memory)
    (actions : List HeapAction) (growth : VecGrowth) (capRegs : CapabilityRegisters)
    {pagesize : BitVec 32} (hpage : OperationalRegisters.pageSize pagesize = .ok pageSize) :
    ∃ heap, FirstFitAllocator.initWithMmap map { mem, firstHeader := 0 } = .ok () heap ∧
      let s := Run.exec HeapSystem.step actions (HeapSystem.start heap)
      let n := max capRegs.numScratchpadBufs 1
      ∃ bs, s.heap.Represents bs ∧
        ((∀ self s', alloc growth capRegs pagesize s = .ok self s' →
            self.Placed pageSize n s') ↔ CopiesAligned growth pageSize n bs) := by
  obtain ⟨heap, hrun, hstart⟩ := HeapSystem.sound_start hmap mem
  obtain ⟨pool, hsound⟩ := HeapSystem.sound_exec hstart actions
  have howns : Owns (map.seeding hmap) pool.blocks [] _ :=
    ⟨⟨pool, rfl, hsound⟩, by simp, .nil⟩
  have hfollows := alloc_follows_placed growth hpage capRegs rfl howns
  refine ⟨heap, hrun, pool.blocks, hsound.represents, ?_, ?_⟩
  · intro hplaced t cs hplan
    obtain ⟨self, s', halloc, -, hiff⟩ := hfollows.returns hplan
    exact hiff.1 (hplaced self s' halloc)
  · intro haligned self s' halloc
    obtain ⟨r, hplan, -, hiff⟩ := hfollows.of_ok halloc
    exact hiff.2 (haligned r.1 r.2 hplan)

/-- The only buffer in a heap of sixteen pages. -/
theorem alloc_placed_iff_sixteenPages :
    ∃ heap, FirstFitAllocator.initWithMmap MemoryMapHolder.sixteenPages
        { mem := fun _ => 0, firstHeader := 0 } = .ok () heap ∧
      let s := Run.exec HeapSystem.step [.alloc Layout.page4K] (HeapSystem.start heap)
      let n := max (CapabilityRegisters.mk 0 0 0 0 0).numScratchpadBufs 1
      ∃ bs, s.heap.Represents bs ∧
        ((∀ self s', alloc .double ⟨0, 0, 0, 0, 0⟩ 1 s = .ok self s' → self.Placed 4096 n s') ↔
          CopiesAligned .double 4096 n bs) :=
  alloc_placed_iff MemoryMapHolder.sixteenPages MemoryMapHolder.sixteenPages_usable _ _ _ _
    OperationalRegisters.pageSize_one

/-- On a fresh heap of sixteen pages the only buffer is not aligned to a page. -/
theorem not_placed_sixteenPages :
    ∃ heap self s', FirstFitAllocator.initWithMmap MemoryMapHolder.sixteenPages
        { mem := fun _ => 0, firstHeader := 0 } = .ok () heap ∧
      OperationalRegisters.pageSize 1 = .ok 4096 ∧
      alloc .double ⟨0, 0, 0, 0, 0⟩ 1 (HeapSystem.start heap) = .ok self s' ∧
      self.pointers s' = [0x10bfe0] ∧ ¬self.Placed 4096 1 s' := by
  obtain ⟨heap, hrun, howns⟩ :=
    HeapSystem.owns_start MemoryMapHolder.sixteenPages_usable fun _ => 0
  have hranges : MemoryMapHolder.sixteenPages.seededRanges = [⟨0x100000, 0x110000⟩] := by decide
  rw [hranges] at howns
  -- both copies are taken from the rest of a block whose end was aligned and then cut off
  have hplan : copySources .double 4096 1 ([⟨0x100000, 0x110000⟩].map Block.ofSpan) =
      some (⟨0x100000, 0xefe0, false⟩, [⟨0x100000, 0xcfe0, false⟩]) := by
    decide +kernel
  let capRegs : CapabilityRegisters := ⟨0, 0, 0, 0, 0⟩
  have hone : 1 = max capRegs.numScratchpadBufs 1 := by decide +kernel
  have hfollows := alloc_follows_placed (n := 1) .double OperationalRegisters.pageSize_one
    capRegs hone howns
  obtain ⟨self, s', halloc, hpointers, hiff⟩ := hfollows.returns hplan
  refine ⟨heap, self, s', hrun, OperationalRegisters.pageSize_one, halloc, hpointers, ?_⟩
  exact fun hplaced => absurd (hiff.1 hplaced).2 (by decide)

end ScratchpadBuffers

end Mushix
