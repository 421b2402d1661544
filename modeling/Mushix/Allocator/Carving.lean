import Mathlib.Order.Bounds.Basic
import Mushix.Allocator.HeapSystem

/-!
# Which block is carved, and how

What one allocation does to the chain of headers of a reachable heap, in the words of
`alloc_with_options`, `can_provide` and `provide` (`allocator.rs`).

* `Block.CanProvide`, `Block.Carves`: the condition of the code, and the parts of a block;
* `HeapSystem.alloc_carves_first`: the first block that can provide is carved, and nothing else;
* `HeapSystem.provide_safe`: `provide` wraps nowhere, and its headers overlap nothing.
-/

namespace Mushix

open Bytes (Memory)
open FirstFitAllocator (allocWithOptions)

/-- The header is free and `can_provide(need, align)` holds, with the alignment of `provide`. -/
def Block.CanProvide (b : Block) (need align : ℕ) : Prop :=
  b.isAllocated = false ∧ need + 64 + max align 32 ≤ b.size

/-- The parts of a block that provides `need` bytes at `p`: the block itself, shortened, the block
of the allocation and at most one block of padding, one behind the other. -/
structure Block.Carves (b : Block) (need p : ℕ) (kept taken : Block) (gap : List Block) :
    Prop where
  kept_addr : kept.addr = b.addr
  kept_free : kept.isAllocated = false
  taken_addr : taken.addr = kept.addr + kept.size
  taken_size : taken.size = need + 32
  taken_allocated : taken.isAllocated = true
  payload : p = taken.addr + 32
  gap_length : gap.length ≤ 1
  gap_free : ∀ c ∈ gap, c.isAllocated = false ∧ c.addr = taken.addr + taken.size
  sizes : kept.size + taken.size + (gap.map Block.size).sum = b.size

namespace Layout

variable {size align : ℕ}

/-- The condition of `Layout::from_size_align`: the size, rounded up to the alignment, is at most
`isize::MAX`. -/
theorem fits_iff (halign : align.isPowerOfTwo) (hword : align < 2 ^ 64) :
    size + align ≤ 2 ^ 63 ↔ (size + align - 1) / align * align ≤ 2 ^ 63 - 1 := by
  obtain ⟨k, rfl⟩ := halign
  have hk : k ≤ 63 := Nat.le_of_lt_succ ((Nat.pow_lt_pow_iff_right (by decide)).1 hword)
  have hpos : 0 < 2 ^ k := Nat.two_pow_pos k
  constructor
  · intro hfits
    have hle := Nat.div_mul_le_self (size + 2 ^ k - 1) (2 ^ k)
    omega
  -- `2 ^ 63` is a multiple of the alignment: what is not below it is not below it rounded down
  · intro hround
    by_contra hfits
    have hsplit : 2 ^ 63 = 2 ^ (63 - k) * 2 ^ k := by rw [← pow_add, Nat.sub_add_cancel hk]
    have hle : 2 ^ (63 - k) ≤ (size + 2 ^ k - 1) / 2 ^ k := by
      rw [Nat.le_div_iff_mul_le hpos, ← hsplit]
      omega
    have hmul := Nat.mul_le_mul_right (2 ^ k) hle
    rw [← hsplit] at hmul
    omega

/-- The demand is the least power of two that is not below the size, or the size of a header. -/
theorem isLeast_pow_clog (layout : Layout) :
    IsLeast {n | n.isPowerOfTwo ∧ layout.size ≤ n} (2 ^ Nat.clog 2 layout.size) := by
  refine ⟨⟨⟨_, rfl⟩, Nat.le_pow_clog (by decide) _⟩, ?_⟩
  rintro n ⟨⟨k, rfl⟩, hle⟩
  exact Nat.pow_le_pow_right (by decide) (Nat.clog_le_of_le_pow hle)

/-- The space for a layout is a power of two, and a header at least. -/
theorem need_eq (layout : Layout) :
    layout.demand.need = max 32 (2 ^ Nat.clog 2 layout.size) := Nat.max_comm _ _

/-- The condition of the code is the one of the abstract model. -/
theorem serves_iff (layout : Layout) (b : Block) :
    b.Serves layout.demand ↔ b.CanProvide layout.demand.need layout.align := by
  rw [Block.Serves, Block.CanProvide, ← layout.demand_align]
  rfl

end Layout

namespace Block

variable {b : Block} {d : Demand}

/-- The parts of the abstract model are the parts of the code. -/
theorem Serves.carves (h : b.Serves d) :
    b.Carves d.need (b.place d) (b.rest d) (b.taken d) (b.gap d) := by
  obtain ⟨hlo, hsum⟩ := h.place_bounds
  unfold headerSize at hlo
  have htaken : (b.taken d).addr + (b.taken d).size = b.place d + d.need := by
    show b.place d - 32 + (d.need + 32) = _
    omega
  refine ⟨rfl, h.1, ?_, rfl, rfl, ?_, ?_, ?_, ?_⟩
  · show b.place d - 32 = b.addr + (b.place d - 32 - b.addr)
    omega
  · show b.place d = b.place d - 32 + 32
    omega
  · rw [gap]
    split <;> simp
  · intro c hc
    obtain rfl := eq_of_mem_gap hc
    exact ⟨rfl, htaken.symm⟩
  · have hgap : ((b.gap d).map Block.size).sum = b.padding d := by
      rw [gap]
      split <;> simp [*]
    rw [hgap]
    show b.place d - 32 - b.addr + (d.need + 32) + b.padding d = b.size
    omega

end Block

namespace HeapSystem

variable {seed : Seeding} {pool : Pool seed} {s : HeapSystem}

/-! ## One allocation -/

/-- An allocation in a heap that is a pool of blocks. -/
theorem Sound.alloc_carves (h : Sound pool s) (layout : Layout) {n : ℕ}
    (hn : n = 2 ^ Nat.clog 2 layout.size) :
    ∃ p s', allocWithOptions layout s.heap = .ok p s' ∧
      (p = 0 ↔ layout.size = 0 ∨ ∀ b ∈ pool.blocks, ¬b.CanProvide (max 32 n) layout.align) ∧
      (p = 0 → s' = s.heap) ∧
      (p ≠ 0 → ∃ pre b post kept taken gap, pool.blocks = pre ++ b :: post ∧
        (∀ c ∈ pre, ¬c.CanProvide (max 32 n) layout.align) ∧
        b.CanProvide (max 32 n) layout.align ∧ b.Carves (max 32 n) p kept taken gap ∧
        s'.Represents (pre ++ (kept :: taken :: gap ++ post)) ∧
        s'.firstHeader = s.heap.firstHeader ∧ ∀ x, x ∉ b.span → s'.mem x = s.heap.mem x) := by
  subst hn
  simp only [← layout.need_eq, ← layout.serves_iff]
  -- without bytes to provide, or without a block to provide them, the heap stays as it is
  by_cases hnot : layout.size = 0 ∨ ∀ b ∈ pool.blocks, ¬b.Serves layout.demand
  · have hnone : ∀ c ∈ pool.blocks, layout.size = 0 ∨ ¬c.Serves layout.demand := by
      intro c hc
      exact hnot.imp_right fun hno => hno c hc
    exact ⟨0, s.heap, FirstFitAllocator.allocWithOptions_none h.represents hnone, by simp [hnot],
      by simp, by simp⟩
  rw [not_or] at hnot
  obtain ⟨hsize, hsome⟩ := hnot
  cases hfit : firstFit layout.demand pool.blocks with
  | none => exact absurd (firstFit_eq_none.1 hfit) hsome
  | some found =>
    obtain ⟨q, bs⟩ := found
    obtain ⟨pre, b, post, hsplit, hpre, hb, -, -⟩ := firstFit_eq_some hfit
    obtain ⟨m', hrun, hrep, hsame⟩ := FirstFitAllocator.allocWithOptions_carve
      (Nat.pos_of_ne_zero hsize) h.represents hsplit hpre hb
    have hne : b.place layout.demand ≠ 0 := by
      obtain ⟨hlo, -⟩ := hb.place_bounds
      obtain ⟨haddr, -⟩ := pool.mem_bounds (Pool.mem_of_split hsplit)
      omega
    refine ⟨b.place layout.demand, _, hrun, by simp [hne, hsize, hsome], by simp [hne], ?_⟩
    intro _
    exact ⟨pre, b, post, _, _, _, hsplit, hpre, hb, hb.carves, hrep, rfl, hsame⟩

/-- Whatever the clients do after `init_with_mmap`: `alloc_with_options` returns the null pointer
exactly when no bytes are asked for or no free header of the chain can provide them, and then the
heap is what it was. Otherwise the first header that can provide is replaced by its parts, and no
byte outside of its block changes. -/
theorem alloc_carves_first (map : MemoryMapHolder) (hmap : map.Usable) (mem : Memory)
    (actions : List HeapAction) (layout : Layout) :
    ∃ heap, FirstFitAllocator.initWithMmap map { mem, firstHeader := 0 } = .ok () heap ∧
      let s := (Run.exec step actions (start heap)).heap
      ∃ bs n p s', s.Represents bs ∧ IsLeast {n | n.isPowerOfTwo ∧ layout.size ≤ n} n ∧
        allocWithOptions layout s = .ok p s' ∧
        (p = 0 ↔ layout.size = 0 ∨ ∀ b ∈ bs, ¬b.CanProvide (max 32 n) layout.align) ∧
        (p = 0 → s' = s) ∧
        (p ≠ 0 → ∃ pre b post kept taken gap, bs = pre ++ b :: post ∧
          (∀ c ∈ pre, ¬c.CanProvide (max 32 n) layout.align) ∧
          b.CanProvide (max 32 n) layout.align ∧ b.Carves (max 32 n) p kept taken gap ∧
          s'.Represents (pre ++ (kept :: taken :: gap ++ post)) ∧
          s'.firstHeader = s.firstHeader ∧ ∀ x, x ∉ b.span → s'.mem x = s.mem x) := by
  obtain ⟨heap, hrun, hstart⟩ := sound_start hmap mem
  obtain ⟨pool, h⟩ := sound_exec hstart actions
  obtain ⟨p, s', hcarves⟩ := h.alloc_carves layout rfl
  exact ⟨heap, hrun, pool.blocks, _, p, s', h.represents, layout.isLeast_pow_clog, hcarves⟩

/-- The second page of a heap of three pages. -/
theorem alloc_carves_first_threePages :
    ∃ heap, FirstFitAllocator.initWithMmap MemoryMapHolder.threePages
        { mem := fun _ => 0, firstHeader := 0 } = .ok () heap ∧
      let s := (Run.exec step [.alloc Layout.page4K] (start heap)).heap
      ∃ bs n p s', s.Represents bs ∧
        IsLeast {n | n.isPowerOfTwo ∧ Layout.page4K.size ≤ n} n ∧
        allocWithOptions Layout.page4K s = .ok p s' ∧
        (p = 0 ↔ Layout.page4K.size = 0 ∨
          ∀ b ∈ bs, ¬b.CanProvide (max 32 n) Layout.page4K.align) ∧
        (p = 0 → s' = s) ∧
        (p ≠ 0 → ∃ pre b post kept taken gap, bs = pre ++ b :: post ∧
          (∀ c ∈ pre, ¬c.CanProvide (max 32 n) Layout.page4K.align) ∧
          b.CanProvide (max 32 n) Layout.page4K.align ∧ b.Carves (max 32 n) p kept taken gap ∧
          s'.Represents (pre ++ (kept :: taken :: gap ++ post)) ∧
          s'.firstHeader = s.firstHeader ∧ ∀ x, x ∉ b.span → s'.mem x = s.mem x) :=
  alloc_carves_first MemoryMapHolder.threePages MemoryMapHolder.threePages_usable _ _ _

/-! ## One header -/

/-- What `provide` does at a header of a pool of blocks. -/
theorem Sound.provide_parts (h : Sound pool s) (layout : Layout) {b : Block}
    (hb : b ∈ pool.blocks) :
    ∃ r s', Header.provide b.addr layout.size layout.align s.heap = .ok r s' ∧
      (r = none → s' = s.heap) ∧
      ∀ p, r = some p → ∃ pre cs post, pool.blocks = pre ++ b :: post ∧
        s'.Represents (pre ++ (cs ++ post)) ∧
        (∀ x, (∀ c ∈ cs, x ∉ c.header) → s'.mem x = s.heap.mem x) ∧
        (∀ c ∈ cs, 32 ∣ c.addr ∧ 32 ≤ c.size) ∧
        (pre ++ (cs ++ post)).Pairwise (fun c c' => c.header.Apart c'.header) ∧
        ∀ c ∈ pre ++ (cs ++ post), c.header.Apart ⟨p, p + layout.demand.need⟩ := by
  obtain ⟨pre, post, hsplit⟩ := List.append_of_mem hb
  by_cases hnot : layout.size = 0 ∨ ¬b.Serves layout.demand
  · have hchain : Chain s.heap.mem s.heap.firstHeader (pre ++ b :: post) :=
      hsplit ▸ h.represents
    obtain ⟨q, -, rfl, hsize, hallocated, -⟩ := hchain.of_append
    exact ⟨none, s.heap, FirstFitAllocator.provide_of_not_serves hsize hallocated hnot, by simp,
      by simp⟩
  rw [not_or, not_not] at hnot
  obtain ⟨hsize, hserves⟩ := hnot
  obtain ⟨m', hrun, hrep, hsame⟩ := FirstFitAllocator.provide_carve (Nat.pos_of_ne_zero hsize)
    h.represents hsplit hserves
  let carved := pool.carve hsplit hserves
  refine ⟨_, _, hrun, by simp, fun p hp => ?_⟩
  obtain rfl := Option.some.inj hp
  refine ⟨pre, b.carve layout.demand, post, hsplit, hrep, hsame, ?_, ?_, ?_⟩
  · intro c hc
    have hmem : c ∈ carved.blocks := Pool.mem_replaced_iff.2 (.inl hc)
    exact ⟨(carved.granular c hmem).1, (carved.mem_bounds hmem).2.1⟩
  · refine carved.pairwise_apart.imp_of_mem fun {c c'} hc hc' hapart => ?_
    exact hapart.of_within (carved.header_within hc) (carved.header_within hc')
  -- the payload is the one of the block that was taken
  · intro c hc
    have htaken : b.taken layout.demand ∈ carved.blocks :=
      Pool.mem_replaced_iff.2 (.inl (by simp [Block.carve]))
    refine Span.Apart.symm (Span.apart_iff.2 fun x hx => ?_)
    refine FirstFitAllocator.not_mem_header htaken ?_ hc
    obtain ⟨hlo, hsum⟩ := hserves.place_bounds
    have hx' : b.place layout.demand ≤ x ∧ x < b.place layout.demand + layout.demand.need := hx
    refine ⟨?_, ?_⟩
    · show b.place layout.demand - headerSize + headerSize ≤ x
      omega
    · show x < b.place layout.demand - headerSize + (layout.demand.need + headerSize)
      omega

/-- Whatever the clients do after `init_with_mmap`, and for every layout that Rust accepts: no sum
of `can_provide` and `end_addr` reaches `2 ^ 64`, and `provide` does not panic, be it for a
subtraction or the assertion. The headers that it writes are the ones of blocks on the grid of
headers and not smaller than a header, and no header overlaps another one or the payload. -/
theorem provide_safe (map : MemoryMapHolder) (hmap : map.Usable) (mem : Memory)
    (actions : List HeapAction) (size align : ℕ) (halign : align.isPowerOfTwo)
    (hword : align < 2 ^ 64) (hround : (size + align - 1) / align * align ≤ 2 ^ 63 - 1) :
    ∃ heap, FirstFitAllocator.initWithMmap map { mem, firstHeader := 0 } = .ok () heap ∧
      let s := (Run.exec step actions (start heap)).heap
      ∃ bs n, s.Represents bs ∧ IsLeast {n | n.isPowerOfTwo ∧ size ≤ n} n ∧
        max 32 n + 64 + max align 32 < 2 ^ 64 ∧
        ∀ b ∈ bs, b.addr + b.size < 2 ^ 64 ∧
          ∃ r s', Header.provide b.addr size align s = .ok r s' ∧ (r = none → s' = s) ∧
            ∀ p, r = some p → ∃ pre cs post, bs = pre ++ b :: post ∧
              s'.Represents (pre ++ (cs ++ post)) ∧
              (∀ x, (∀ c ∈ cs, x ∉ c.header) → s'.mem x = s.mem x) ∧
              (∀ c ∈ cs, 32 ∣ c.addr ∧ 32 ≤ c.size) ∧
              (pre ++ (cs ++ post)).Pairwise (fun c c' => c.header.Apart c'.header) ∧
              ∀ c ∈ pre ++ (cs ++ post), c.header.Apart ⟨p, p + max 32 n⟩ := by
  let layout : Layout := ⟨size, align, halign, (Layout.fits_iff halign hword).2 hround⟩
  obtain ⟨heap, hrun, hstart⟩ := sound_start hmap mem
  obtain ⟨pool, h⟩ := sound_exec hstart actions
  -- `Layout` bounds the size, and with it all sums of `can_provide`
  have hfits : max 32 (2 ^ Nat.clog 2 size) + 64 + max align 32 < 2 ^ 64 := by
    have hdemand := layout.demand.fits
    rw [← layout.demand_align, layout.need_eq] at hdemand
    exact hdemand
  refine ⟨heap, hrun, pool.blocks, _, h.represents, layout.isLeast_pow_clog, hfits, ?_⟩
  intro b hb
  refine ⟨(pool.mem_bounds hb).2.2, ?_⟩
  have hparts := h.provide_parts layout hb
  rw [layout.need_eq] at hparts
  exact hparts

/-- The largest size that is aligned to a header, in a heap of three pages with an allocation. -/
theorem provide_safe_threePages :
    ∃ heap, FirstFitAllocator.initWithMmap MemoryMapHolder.threePages
        { mem := fun _ => 0, firstHeader := 0 } = .ok () heap ∧
      let s := (Run.exec step [.alloc Layout.page4K] (start heap)).heap
      ∃ bs n, s.Represents bs ∧ IsLeast {n | n.isPowerOfTwo ∧ 2 ^ 63 - 32 ≤ n} n ∧
        max 32 n + 64 + max 32 32 < 2 ^ 64 ∧
        ∀ b ∈ bs, b.addr + b.size < 2 ^ 64 ∧
          ∃ r s', Header.provide b.addr (2 ^ 63 - 32) 32 s = .ok r s' ∧ (r = none → s' = s) ∧
            ∀ p, r = some p → ∃ pre cs post, bs = pre ++ b :: post ∧
              s'.Represents (pre ++ (cs ++ post)) ∧
              (∀ x, (∀ c ∈ cs, x ∉ c.header) → s'.mem x = s.mem x) ∧
              (∀ c ∈ cs, 32 ∣ c.addr ∧ 32 ≤ c.size) ∧
              (pre ++ (cs ++ post)).Pairwise (fun c c' => c.header.Apart c'.header) ∧
              ∀ c ∈ pre ++ (cs ++ post), c.header.Apart ⟨p, p + max 32 n⟩ :=
  provide_safe MemoryMapHolder.threePages MemoryMapHolder.threePages_usable _ _ _ _ ⟨5, rfl⟩
    (by decide) (by decide)

end HeapSystem

end Mushix
