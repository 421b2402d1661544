import Mushix.Allocator.Reuse
import Mushix.Xhci.Scratchpad

/-!
# Scratchpad buffers that are not aligned

Where the heap has at most one block with room for a page, the copy of a buffer is taken from what
is left of the block of the aligned request for it, and this ends a header below an aligned address.

* `Layout.eq_rest_of_take`: which block serves a demand after an allocation from the only one;
* `ScratchpadBuffers.not_placed_of_room`: no such heap gives the controller what it needs;
* `ScratchpadBuffers.not_placed_fresh`: a heap that was made from one range is such a heap.
-/

namespace Mushix

open Bytes (Memory)
open HeapSystem (Owns)

namespace Block

variable {b c : Block} {d d' : Demand}

/-- Of the parts of a block only what is left of it serves a demand that is not below the
alignment. -/
theorem not_serves_of_mem_taken_gap (halign : 2 ^ d'.shift ≤ d.need)
    (hc : c ∈ b.taken d' :: b.gap d') : ¬c.Serves d := by
  rcases List.mem_cons.1 hc with rfl | hc
  · simp [Serves, taken]
  have hmod : b.padding d' < 2 ^ d'.shift := Nat.mod_lt _ (Nat.two_pow_pos _)
  obtain rfl := eq_of_mem_gap hc
  apply not_serves_of_size_le
  show b.padding d' ≤ d.need + headerSize
  omega

/-- The number of blocks that serve such a demand does not grow. -/
theorem Serves.countP_carve (hb : b.Serves d') (halign : 2 ^ d'.shift ≤ d.need) :
    (b.carve d').countP (·.Serves d) ≤ [b].countP (·.Serves d) := by
  have hparts : (b.taken d' :: b.gap d').countP (·.Serves d) = 0 := by
    rw [List.countP_eq_zero]
    intro c hc
    simpa using not_serves_of_mem_taken_gap halign hc
  have hrest : (b.rest d').Serves d → b.Serves d := fun h =>
    ⟨hb.1, h.2.trans hb.rest_size_lt.le⟩
  rw [carve, List.countP_cons, hparts]
  by_cases h : (b.rest d').Serves d
  · simp [h, hrest h]
  · simp [h]

end Block

namespace Layout

variable {layout : Layout} {d : Demand} {b c : Block} {bs bs' : List Block}

/-- An allocation leaves no more blocks with room than there were. -/
theorem countP_take (h : layout.take bs = some (b, bs'))
    (halign : 2 ^ layout.demand.shift ≤ d.need) :
    bs'.countP (·.Serves d) ≤ bs.countP (·.Serves d) := by
  obtain ⟨pre, post, rfl, -, hb, rfl⟩ := take_eq_some h
  have hcarve := hb.countP_carve halign
  rw [List.countP_singleton] at hcarve
  simp only [List.countP_append, List.countP_cons]
  omega

/-- After an allocation from the only block that serves a demand, at most the rest of it does. -/
theorem eq_rest_of_take (h : layout.take bs = some (b, bs'))
    (halign : 2 ^ layout.demand.shift ≤ d.need) (hlone : bs.countP (·.Serves d) ≤ 1)
    (hb : b.Serves d) (hc : c ∈ bs') (hserves : c.Serves d) : c = b.rest layout.demand := by
  obtain ⟨pre, post, rfl, -, -, rfl⟩ := take_eq_some h
  -- no block before or behind it serves the demand
  have hothers : pre.countP (·.Serves d) = 0 ∧ post.countP (·.Serves d) = 0 := by
    simp only [List.countP_append, List.countP_cons, hb, decide_true, if_true] at hlone
    omega
  rw [List.countP_eq_zero, List.countP_eq_zero] at hothers
  rcases Pool.mem_replaced_iff.1 hc with hc | hc | hc
  · rcases List.mem_cons.1 hc with rfl | hc
    · rfl
    · exact absurd hserves (Block.not_serves_of_mem_taken_gap halign hc)
  · exact absurd (decide_eq_true hserves) (hothers.1 c hc)
  · exact absurd (decide_eq_true hserves) (hothers.2 c hc)

end Layout

namespace ScratchpadBuffers

variable {seed : Seeding} {growth : VecGrowth} {pageSize n k : ℕ} {bs bs' : List Block}
  {page : Layout} {bufs bufs' : BoxVec} {c t : Block} {cs : List Block} {s : HeapSystem}

/-- What is left of the block of an aligned request does not end at a multiple of the alignment, so
a copy that is taken from there is not aligned. -/
theorem rest_not_aligned {layout : Layout}
    (hlayout : Layout.fromSizeAlign pageSize pageSize = some layout) (hlt : 32 < pageSize)
    {b : Block} (hb : b.Serves layout.demand) :
    ((b.rest layout.demand).addr + (b.rest layout.demand).size) % pageSize ≠ 0 := by
  intro hend
  have hplace := layout.mod_align (Block.place_mod b layout.demand)
  rw [(Layout.fromSizeAlign_eq_some hlayout).2] at hplace
  obtain ⟨hlo, -⟩ := hb.place_bounds
  unfold headerSize at hlo
  have hrest : (b.rest layout.demand).addr + (b.rest layout.demand).size =
      b.place layout.demand - 32 := by
    show b.addr + (b.place layout.demand - 32 - b.addr) = _
    omega
  rw [hrest] at hend
  -- two multiples of the page size would be only a header apart
  have hdvd := (Nat.dvd_sub_iff_right (by omega) (Nat.dvd_of_mod_eq_zero hplace)).1
    (Nat.dvd_of_mod_eq_zero hend)
  have hle := Nat.le_of_dvd (by decide) hdvd
  omega

theorem lt_page (k : ℕ) : 32 < 2 ^ (k + 12) := by
  have hle : 2 ^ 12 ≤ 2 ^ (k + 12) := Nat.pow_le_pow_right (by decide) (by omega)
  omega

/-- An alignment of at most a page is not above the demand of a page. -/
theorem align_le_need (hpage : Layout.array 1 1 (2 ^ (k + 12)) = some page) {layout : Layout}
    (halign : layout.align ≤ 2 ^ (k + 12)) : 2 ^ layout.demand.shift ≤ page.demand.need := by
  rw [need_page (page_size hpage), ← layout.demand_align]
  exact Nat.max_le.2 ⟨halign, (lt_page k).le⟩

/-- A block with room for an aligned page has room for its copy. -/
theorem serves_page (hpage : Layout.array 1 1 (2 ^ (k + 12)) = some page) {layout : Layout}
    (hlayout : Layout.fromSizeAlign (2 ^ (k + 12)) (2 ^ (k + 12)) = some layout)
    (hb : c.Serves layout.demand) : c.Serves page.demand := by
  obtain ⟨hsize, halign⟩ := Layout.fromSizeAlign_eq_some hlayout
  have hneed : page.demand.need = layout.demand.need := by
    rw [need_page hsize, need_page (page_size hpage)]
  have hshift : 2 ^ page.demand.shift ≤ 2 ^ layout.demand.shift := by
    rw [← page.demand_align, ← layout.demand_align, halign,
      (Layout.fromSizeAlign_eq_some hpage).2]
    have hlt := lt_page k
    unfold headerSize
    omega
  have hroom := hb.2
  exact ⟨hb.1, by omega⟩

/-- Where at most one block has room for the copy of a page, the copy is taken from what is left of
the block of the aligned request. -/
theorem bufTake_not_aligned (hpage : Layout.array 1 1 (2 ^ (k + 12)) = some page)
    (hlone : bs.countP (·.Serves page.demand) ≤ 1)
    (h : bufTake growth (2 ^ (k + 12)) bufs bs = some (c, bufs', bs')) :
    (c.addr + c.size) % 2 ^ (k + 12) ≠ 0 := by
  simp only [bufTake, copyTake, hpage, Option.bind_eq_bind, Option.bind_eq_some_iff,
    Option.some.injEq] at h
  obtain ⟨layout, hlayout, ⟨b, bs₁⟩, hraw, ⟨c, bs₂⟩, ⟨_, rfl, hcopy⟩, ⟨v, bs₃⟩, -, hresult⟩ := h
  cases hresult
  obtain ⟨-, -, -, -, hb, -⟩ := Layout.take_eq_some hraw
  obtain ⟨pre, post, hsplit, -, hc, -⟩ := Layout.take_eq_some hcopy
  have hmem : c ∈ bs₁ := by
    have hsplit' : bs₁ = pre ++ c :: post := hsplit
    simp [hsplit']
  have halign := align_le_need hpage (Layout.fromSizeAlign_eq_some hlayout).2.le
  obtain rfl := Layout.eq_rest_of_take hraw halign hlone (serves_page hpage hlayout hb) hmem hc
  exact rest_not_aligned hlayout (lt_page k) hb

/-- Where at most one block has room for the copy of a page, the buffers are not aligned. -/
theorem not_aligned_of_lone (hpage : Layout.array 1 1 (2 ^ (k + 12)) = some page) (hn : 0 < n)
    (hlone : bs.countP (·.Serves page.demand) ≤ 1)
    (h : copySources growth (2 ^ (k + 12)) n bs = some (t, cs)) :
    ∃ c ∈ cs, (c.addr + c.size) % 2 ^ (k + 12) ≠ 0 := by
  obtain ⟨n, rfl⟩ := Nat.exists_eq_succ_of_ne_zero hn.ne'
  simp only [copySources, copyTake, bufSources, Option.bind_eq_bind,
    Option.bind_eq_some_iff] at h
  obtain ⟨raw, hraw, ⟨b, bs₁⟩, htake, ⟨t', bs₂⟩, ⟨table, htable, hcopy⟩, cs₁,
    ⟨⟨c, v, bs₃⟩, hbuf, cs₂, -, hcs⟩, hresult⟩ := h
  cases hcs
  cases hresult
  -- the table leaves at most one block with room
  have hlone₁ := (Layout.countP_take htake
    (align_le_need hpage (Layout.fromSizeAlign_eq_some hraw).2.le)).trans hlone
  have htalign : table.align ≤ 2 ^ (k + 12) := by
    have hlt := lt_page k
    rw [(Layout.fromSizeAlign_eq_some htable).2]
    omega
  have hlone₂ := (Layout.countP_take hcopy (align_le_need hpage htalign)).trans hlone₁
  exact ⟨c, List.mem_cons_self, bufTake_not_aligned hpage hlone₂ hbuf⟩

/-- A block has room for the copy of a page when there are three headers more. -/
theorem serves_page_iff (hpage : Layout.array 1 1 (2 ^ (k + 12)) = some page) :
    c.Serves page.demand ↔ c.isAllocated = false ∧ 2 ^ (k + 12) + 96 ≤ c.size := by
  have hshift : 2 ^ page.demand.shift = 32 := by
    rw [← page.demand_align, (Layout.fromSizeAlign_eq_some hpage).2]
    rfl
  rw [Block.Serves, need_page (page_size hpage), hshift]
  rfl

/-- In a heap with at most one free block with room for a page and three headers, the method does
not give the controller what it needs. -/
theorem not_placed_of_room {pagesize : BitVec 32}
    (hpage : OperationalRegisters.pageSize pagesize = .ok pageSize) (capRegs : CapabilityRegisters)
    (h : Owns seed bs [] s)
    (hroom : bs.countP (fun b => b.isAllocated = false ∧ pageSize + 96 ≤ b.size) ≤ 1)
    {self : ScratchpadBuffers} {s' : HeapSystem}
    (halloc : alloc growth capRegs pagesize s = .ok self s') :
    ¬self.Placed pageSize (max capRegs.numScratchpadBufs 1) s' := by
  obtain ⟨r, hplan, -, hiff⟩ := (alloc_follows_placed growth hpage capRegs rfl h).of_ok halloc
  obtain ⟨page, harray, -⟩ := array_page hpage
  obtain ⟨k, -, rfl⟩ := OperationalRegisters.pageSize_eq_ok hpage
  have hroom' : bs.countP (·.Serves page.demand) ≤ 1 := by
    simpa only [serves_page_iff harray] using hroom
  obtain ⟨c, hc, hend⟩ := not_aligned_of_lone harray (by omega) hroom' hplan
  exact fun hplaced => hend ((hiff.1 hplaced).2 c hc)

/-- Right after `init_with_mmap` on a memory map with one range of free memory, the method never
gives the controller what it needs. -/
theorem not_placed_fresh (map : MemoryMapHolder) (hmap : map.Usable)
    (hone : map.seededRanges.length ≤ 1) (mem : Memory) (growth : VecGrowth)
    (capRegs : CapabilityRegisters) {pagesize : BitVec 32}
    (hpage : OperationalRegisters.pageSize pagesize = .ok pageSize) :
    ∃ heap, FirstFitAllocator.initWithMmap map { mem, firstHeader := 0 } = .ok () heap ∧
      ∀ self s', alloc growth capRegs pagesize (HeapSystem.start heap) = .ok self s' →
        ¬self.Placed pageSize (max capRegs.numScratchpadBufs 1) s' := by
  obtain ⟨heap, hrun, howns⟩ := HeapSystem.owns_start hmap mem
  refine ⟨heap, hrun, fun self s' halloc => not_placed_of_room hpage capRegs howns ?_ halloc⟩
  have hle := List.countP_le_length
    (p := fun b : Block => b.isAllocated = false ∧ pageSize + 96 ≤ b.size)
    (l := map.seededRanges.map Block.ofSpan)
  rw [List.length_map] at hle
  exact hle.trans hone

end ScratchpadBuffers

end Mushix
