import Mushix.Allocator.Boxes

/-!
# Fragmentation

The allocator cuts blocks and never joins them, so the heap wears out: every allocation leaves one
block more, for ever.

* `HeapSystem.step_blocks`: what a step does to the blocks;
* `HeapSystem.returned_bounded`: how many allocations a heap can ever serve;
* `HeapSystem.refused_forever`: a request for which all blocks are too small is never served.
-/

namespace Mushix

open Bytes (Memory)
open FirstFitAllocator (allocWithOptions)
open Tiling (Finer)

namespace Block

variable {b c : Block} {d : Demand}

/-- The blocks of a carved block lie inside it. -/
theorem Serves.within_of_mem_carve (h : b.Serves d) (hc : c ∈ b.carve d) :
    c.span.Within b.span :=
  (h.carve_tiles.mem hc).2

/-- The block of an allocation has two headers or more. -/
theorem two_headers_le_taken (b : Block) (d : Demand) : 64 ≤ (b.taken d).size := by
  have hpos := d.need_pos
  have hdvd := d.need_dvd
  show 64 ≤ d.need + 32
  omega

/-- What is left of a block has two headers or more. -/
theorem Serves.two_headers_le_rest (h : b.Serves d) (hb : b.Granular) : 64 ≤ (b.rest d).size := by
  obtain ⟨hlo, hsum⟩ := h.place_bounds
  have hroom := h.2
  have hlt : b.padding d < 2 ^ d.shift := Nat.mod_lt _ (Nat.two_pow_pos _)
  -- the padding is a header less than the alignment
  have hle : b.padding d + 32 ≤ 2 ^ d.shift := by
    have hdvd := Nat.dvd_sub d.dvd_align (hb.dvd_padding d)
    have := Nat.le_of_dvd (Nat.sub_pos_of_lt hlt) hdvd
    omega
  show 64 ≤ b.place d - headerSize - b.addr
  unfold headerSize at *
  omega

end Block

namespace HeapSystem

variable {seed : Seeding} {pool : Pool seed} {s : HeapSystem}

/-- How the blocks and the number of allocations change. -/
inductive BlocksStep : List Block × ℕ → List Block × ℕ → Prop where
  | same (bs : List Block) (n : ℕ) : BlocksStep (bs, n) (bs, n)
  | carved (pre post : List Block) {b : Block} {d : Demand} (n : ℕ) (hb : b.Serves d)
      (hgranular : b.Granular) :
      BlocksStep (pre ++ b :: post, n) (pre ++ (b.carve d ++ post), n + 1)
  | freed (pre post : List Block) (b : Block) (n : ℕ) :
      BlocksStep (pre ++ b :: post, n) (pre ++ ([b.freed] ++ post), n)

/-- A step cuts a free block, frees a block, or leaves the blocks as they are. -/
theorem step_blocks (h : Sound pool s) (action : HeapAction) :
    ∃ pool' : Pool seed, Sound pool' (step action s) ∧
      BlocksStep (pool.blocks, s.returned.length)
        (pool'.blocks, (step action s).returned.length) := by
  cases action with
  | alloc layout =>
    -- a layout of no bytes and one that fits nowhere change nothing
    rcases Nat.eq_zero_or_pos layout.size with hzero | hpos
    · rw [step_alloc_none h fun _ _ => .inl hzero]
      exact ⟨pool, h, .same _ _⟩
    cases hfit : firstFit layout.demand pool.blocks with
    | none =>
      rw [step_alloc_none h fun c hc => .inr (firstFit_eq_none.1 hfit c hc)]
      exact ⟨pool, h, .same _ _⟩
    | some found =>
      obtain ⟨p, bs⟩ := found
      obtain ⟨pre, b, post, hsplit, hpre, hb, -, -⟩ := firstFit_eq_some hfit
      obtain ⟨m', -, -, hstep, -⟩ := step_alloc_some h hpos hsplit hpre hb
      refine ⟨pool.carve hsplit hb, sound_alloc_some h hpos hsplit hpre hb, ?_⟩
      rw [hstep, hsplit]
      exact .carved pre post _ hb (pool.granular b (Pool.mem_of_split hsplit))
  | dealloc ptr =>
    by_cases hptr : ∃ a ∈ s.live, a.ptr = ptr
    · obtain ⟨a, ha, rfl⟩ := hptr
      obtain ⟨b, pre, post, hsplit, m', -, -, hstep, hsound, -⟩ := sound_dealloc_live h ha
      refine ⟨pool.free hsplit, hsound, ?_⟩
      rw [hstep, hsplit]
      exact .freed pre post b _
    · rw [step, if_neg hptr]
      exact ⟨pool, h, .same _ _⟩
  | write addr value =>
    -- a store of a client is no step of the allocator
    have hreturned : (step (.write addr value) s).returned = s.returned := by
      rw [step]
      split_ifs <;> rfl
    refine ⟨pool, sound_write h addr value, ?_⟩
    rw [hreturned]
    exact .same _ _

namespace BlocksStep

variable {bs bs' : List Block} {n n' : ℕ}

/-- Blocks are never joined. -/
theorem finer (h : BlocksStep (bs, n) (bs', n')) : Finer Block.span bs' bs := by
  cases h with
  | same => exact .refl _ _
  | carved pre post n hb hgranular => exact .replace fun c hc => hb.within_of_mem_carve hc
  | freed pre post b n =>
    refine .replace fun c hc => ?_
    cases List.mem_singleton.1 hc
    exact ⟨le_rfl, le_rfl⟩

/-- Every allocation leaves one block more that has two headers. -/
theorem countP (h : BlocksStep (bs, n) (bs', n')) {k : ℕ}
    (hk : n + k ≤ bs.countP fun b => 64 ≤ b.size) : n' + k ≤ bs'.countP fun b => 64 ≤ b.size := by
  cases h with
  | same => exact hk
  | @carved pre post b d n hb hgranular =>
    have hrest := hb.two_headers_le_rest hgranular
    have htaken := b.two_headers_le_taken d
    simp only [Block.carve, List.countP_append, List.countP_cons, hrest, htaken, decide_true,
      if_true] at hk ⊢
    have hle : (if (decide (64 ≤ b.size)) = true then 1 else 0) ≤ 1 := by split <;> omega
    omega
  | freed pre post b n =>
    simp only [List.countP_append, List.countP_cons, List.singleton_append] at hk ⊢
    exact hk

end BlocksStep

/-- The blocks with two headers or more. -/
def countLarge (bs : List Block) : ℕ := bs.countP fun b => 64 ≤ b.size

/-- Along a run the blocks get finer, and every allocation leaves one block more. -/
theorem exec_blocks (h : Sound pool s) (actions : List HeapAction) :
    ∃ pool' : Pool seed, Sound pool' (Run.exec step actions s) ∧
      Finer Block.span pool'.blocks pool.blocks ∧
      ∀ k, s.returned.length + k ≤ countLarge pool.blocks →
        (Run.exec step actions s).returned.length + k ≤ countLarge pool'.blocks := by
  induction actions generalizing s pool with
  | nil => exact ⟨pool, h, .refl _ _, fun _ hk => hk⟩
  | cons action actions ih =>
    obtain ⟨pool₁, h₁, hstep⟩ := step_blocks h action
    obtain ⟨pool₂, h₂, hfiner, hcount⟩ := ih h₁
    exact ⟨pool₂, h₂, hfiner.trans hstep.finer, fun k hk => hcount k (hstep.countP hk)⟩

/-- Blocks with two headers take as much of the memory. -/
theorem countLarge_le_total (bs : List Block) :
    64 * countLarge bs ≤ Span.total (bs.map Block.span) := by
  induction bs with
  | nil => exact Nat.zero_le _
  | cons b bs ih =>
    have hspan : b.span.hi - b.span.lo = b.size := Nat.add_sub_cancel_left ..
    rw [countLarge, List.countP_cons, List.map_cons, Span.total, hspan]
    change 64 * (countLarge bs + _) ≤ _
    split_ifs with hb
    · have hb := of_decide_eq_true hb
      omega
    · omega

/-- The heap can serve only so many allocations, however much of it is deallocated in between: for
every 64 bytes one, less one for every range of memory. -/
theorem returned_bounded (map : MemoryMapHolder) (hmap : map.Usable) (mem : Memory)
    (actions : List HeapAction) :
    ∃ heap, FirstFitAllocator.initWithMmap map { mem, firstHeader := 0 } = .ok () heap ∧
      64 * ((Run.exec step actions (start heap)).returned.length + map.seededRanges.length) ≤
        Span.total map.seededRanges := by
  obtain ⟨heap, hrun, pool, hblocks, hsound⟩ := sound_start_blocks hmap mem
  -- before the first allocation there is one block for every range, of more than a page
  have hlarge : map.seededRanges.length ≤ countLarge pool.blocks := by
    rw [hblocks, countLarge, List.countP_map]
    refine (List.countP_eq_length.2 fun r hr => ?_).ge
    obtain ⟨e, -, hseed⟩ := MemoryMapHolder.mem_seededRanges hr
    have hlt := (EfiMemoryDescriptor.seededRange_eq_some hseed).2.2
    exact decide_eq_true (show 64 ≤ r.hi - r.lo by omega)
  have hzero : (start heap).returned.length + map.seededRanges.length ≤ countLarge pool.blocks := by
    rwa [show (start heap).returned.length = 0 by rfl, Nat.zero_add]
  obtain ⟨pool', -, -, hcount⟩ := exec_blocks hsound actions
  refine ⟨heap, hrun, ?_⟩
  calc 64 * ((Run.exec step actions (start heap)).returned.length + map.seededRanges.length)
      ≤ 64 * countLarge pool'.blocks := Nat.mul_le_mul_left 64 (hcount _ hzero)
    _ ≤ Span.total (pool'.blocks.map Block.span) := countLarge_le_total pool'.blocks
    _ = Span.total map.seededRanges := pool'.tiles.total_eq

/-- In every reachable heap: a request for which all blocks are too small, be they free or not, is
never served again, whatever is deallocated before. -/
theorem refused_forever (map : MemoryMapHolder) (hmap : map.Usable) (mem : Memory)
    (actions : List HeapAction) :
    ∃ heap bs, FirstFitAllocator.initWithMmap map { mem, firstHeader := 0 } = .ok () heap ∧
      (Run.exec step actions (start heap)).heap.Represents bs ∧
      (∀ b ∈ bs, ∃ r ∈ map.seededRanges, b.span.Within r) ∧
      ∀ layout : Layout, (∀ b ∈ bs, b.size <
          layout.demand.need + headerSize * 2 + max layout.align headerSize) →
        ∀ later,
          let s := Run.exec step later (Run.exec step actions (start heap))
          allocWithOptions layout s.heap = .ok 0 s.heap := by
  obtain ⟨heap, hrun, hstart⟩ := sound_start hmap mem
  obtain ⟨pool, hsound⟩ := sound_exec hstart actions
  refine ⟨heap, pool.blocks, hrun, hsound.represents, fun b hb => (pool.tiles.mem hb).2,
    fun layout hsmall later => ?_⟩
  obtain ⟨pool', hsound', hfiner, -⟩ := exec_blocks hsound later
  apply FirstFitAllocator.allocWithOptions_none hsound'.represents
  -- a block that serves the request would lie inside one that is smaller
  refine fun c hc => .inr fun hserves => ?_
  obtain ⟨b, hb, hlo, hhi⟩ := hfiner c hc
  have hsize := hsmall b hb
  have hroom := hserves.2
  rw [layout.demand_align] at hsize
  have hlo : b.addr ≤ c.addr := hlo
  have hhi : c.addr + c.size ≤ b.addr + b.size := hhi
  omega

/-- A heap of three pages, after one allocation. -/
theorem returned_bounded_threePages :
    ∃ heap, FirstFitAllocator.initWithMmap MemoryMapHolder.threePages
        { mem := fun _ => 0, firstHeader := 0 } = .ok () heap ∧
      64 * ((Run.exec step [.alloc (.packed 100 (by decide))] (start heap)).returned.length +
        MemoryMapHolder.threePages.seededRanges.length) ≤
          Span.total MemoryMapHolder.threePages.seededRanges :=
  returned_bounded MemoryMapHolder.threePages MemoryMapHolder.threePages_usable _ _

/-- A request for more than three pages, in a heap of three pages from which a part was taken. -/
theorem refused_forever_threePages :
    ∃ heap, FirstFitAllocator.initWithMmap MemoryMapHolder.threePages
        { mem := fun _ => 0, firstHeader := 0 } = .ok () heap ∧
      ∀ later,
        let s := Run.exec step later
          (Run.exec step [.alloc (.packed 100 (by decide))] (start heap))
        allocWithOptions (.packed 0x4000 (by decide)) s.heap = .ok 0 s.heap := by
  obtain ⟨heap, bs, hrun, -, hin, hrefused⟩ := refused_forever MemoryMapHolder.threePages
    MemoryMapHolder.threePages_usable (fun _ => 0) [.alloc (.packed 100 (by decide))]
  refine ⟨heap, hrun, hrefused _ fun b hb => ?_⟩
  have hranges : ∀ r ∈ MemoryMapHolder.threePages.seededRanges, r.hi ≤ r.lo + 0x3000 := by decide
  have hneed : 0x4000 ≤ (Layout.packed 0x4000 (by decide)).demand.need := by decide
  obtain ⟨r, hr, hlo, hhi⟩ := hin b hb
  have hrange := hranges r hr
  have hlo : r.lo ≤ b.addr := hlo
  have hhi : b.addr + b.size ≤ r.hi := hhi
  omega

end HeapSystem

end Mushix
