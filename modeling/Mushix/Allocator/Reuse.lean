import Mushix.Allocator.HeapSystem

/-!
# Freeing and allocating again

`can_provide` asks a block for two headers and the alignment on top of the size, but a freed
block has room for its size and one header only, and nothing joins free blocks. So a block that
was allocated for a layout never serves the same layout again, and how often a client can free
an allocation and ask for the same layout depends on the free blocks there were before.

* `Block.capacity`: how often a free block can be carved for a demand;
* `FirstFitAllocator.Churns`: repetitions of `dealloc` and `alloc` that all succeed;
* `HeapSystem.churns_iff_capacity`: they succeed as often as the capacity says, and the freed
  block serves smaller requests.
-/

namespace Mushix

open Bytes (Memory)

namespace Block

variable {b : Block} {d : Demand}

/-- A block gets smaller by what it serves. -/
theorem Serves.rest_size_lt (h : b.Serves d) : (b.rest d).size < b.size := by
  obtain ⟨hlo, hsum⟩ := h.place_bounds
  have hneed := d.need_pos
  show b.place d - headerSize - b.addr < b.size
  omega

/-- The number of times that the block can be carved for the demand. -/
def capacity (d : Demand) (b : Block) : ℕ :=
  if h : b.Serves d then
    have := h.rest_size_lt
    (b.rest d).capacity d + 1
  else
    0
termination_by b.size

/-- A block that serves once has room for what its rest serves. -/
theorem capacity_of_serves (h : b.Serves d) : b.capacity d = (b.rest d).capacity d + 1 := by
  rw [capacity, dif_pos h]

/-- A block that does not serve has no room. -/
theorem capacity_of_not_serves (h : ¬b.Serves d) : b.capacity d = 0 := by
  rw [capacity, dif_neg h]

/-- A block with room for the payload and one header does not serve the demand. -/
theorem not_serves_of_size_le (h : b.size ≤ d.need + headerSize) : ¬b.Serves d := by
  intro hb
  have hsize := hb.2
  have hpow := Nat.two_pow_pos d.shift
  omega

end Block

/-- The number of times that the blocks can be carved for the demand. -/
def capacity (d : Demand) (bs : List Block) : ℕ := (bs.map (Block.capacity d)).sum

section Capacity

variable {b c : Block} {d : Demand} {bs pre post : List Block}

/-- The room of two lists is the sum of both. -/
theorem capacity_append (d : Demand) (bs bs' : List Block) :
    capacity d (bs ++ bs') = capacity d bs + capacity d bs' := by
  rw [capacity, List.map_append, List.sum_append]
  rfl

theorem capacity_cons (d : Demand) (b : Block) (bs : List Block) :
    capacity d (b :: bs) = b.capacity d + capacity d bs := by
  rw [capacity, List.map_cons, List.sum_cons]
  rfl

/-- The padding of an allocation serves no allocation of this alignment. -/
theorem capacity_gap (b : Block) (d : Demand) : capacity d (b.gap d) = 0 := by
  have hmod : b.padding d < 2 ^ d.shift := Nat.mod_lt _ (Nat.two_pow_pos _)
  rw [Block.gap]
  split
  · rfl
  · rw [capacity_cons, Block.capacity_of_not_serves]
    · rfl
    · intro h
      have hsize : d.need + headerSize * 2 + 2 ^ d.shift ≤ b.padding d := h.2
      omega

/-- Every carving uses up one unit of the capacity. -/
theorem capacity_carve (h : b.Serves d) : capacity d (b.carve d) + 1 = b.capacity d := by
  have htaken : (b.taken d).capacity d = 0 :=
    Block.capacity_of_not_serves (Block.not_serves_of_size_le le_rfl)
  rw [Block.carve, capacity_cons, capacity_cons, capacity_gap, htaken,
    Block.capacity_of_serves h]

/-- Without capacity no block serves the demand. -/
theorem capacity_eq_zero (h : ∀ c ∈ bs, ¬c.Serves d) : capacity d bs = 0 := by
  induction bs with
  | nil => rfl
  | cons b bs ih =>
    rw [capacity_cons, Block.capacity_of_not_serves (h b List.mem_cons_self),
      ih fun c hc => h c (List.mem_cons_of_mem b hc)]

/-- Freeing a block that was allocated for a demand adds nothing to the capacity. -/
theorem capacity_free (hsize : c.size ≤ d.need + headerSize) :
    capacity d (pre ++ ([c.freed] ++ post)) = capacity d (pre ++ c :: post) := by
  have hc : c.capacity d = 0 := Block.capacity_of_not_serves (Block.not_serves_of_size_le hsize)
  have hfreed : c.freed.capacity d = 0 :=
    Block.capacity_of_not_serves (Block.not_serves_of_size_le hsize)
  show capacity d (pre ++ c.freed :: post) = _
  rw [capacity_append, capacity_append, capacity_cons, capacity_cons, hc, hfreed]

end Capacity

namespace FirstFitAllocator

/-- From an allocation at `p` on, `n` repetitions of deallocating it and allocating the same
layout again return no null pointer. -/
def Churns (layout : Layout) : ℕ → ℕ → Heap → Prop
  | 0, _, _ => True
  | n + 1, p, s => ∃ s₁ q s₂, dealloc p s = .ok () s₁ ∧ allocWithOptions layout s₁ = .ok q s₂ ∧
      q ≠ 0 ∧ Churns layout n q s₂

variable {seed : Seeding} {pool : Pool seed} {layout : Layout} {s : Heap} {c : Block}
  {pre post : List Block}

/-- An allocation fails where the capacity is used up. Otherwise it returns the payload of a
block of exactly the size of the demand, and one unit of the capacity is gone. -/
theorem alloc_cases (hpos : 0 < layout.size) (hs : s.Represents pool.blocks) :
    (capacity layout.demand pool.blocks = 0 ∧ allocWithOptions layout s = .ok 0 s) ∨
    ∃ (pool' : Pool seed) (c : Block) (pre post : List Block) (s' : Heap),
      allocWithOptions layout s = .ok (c.addr + headerSize) s' ∧ s'.Represents pool'.blocks ∧
      pool'.blocks = pre ++ c :: post ∧ c.size = layout.demand.need + headerSize ∧
      capacity layout.demand pool'.blocks + 1 = capacity layout.demand pool.blocks := by
  cases hfit : firstFit layout.demand pool.blocks with
  | none =>
    have hnot := firstFit_eq_none.1 hfit
    exact .inl ⟨capacity_eq_zero hnot, allocWithOptions_none hs fun c hc => .inr (hnot c hc)⟩
  | some found =>
    obtain ⟨p, bs⟩ := found
    obtain ⟨pre, b, post, hsplit, hpre, hb, -, -⟩ := firstFit_eq_some hfit
    obtain ⟨m', hrun, hrep, -⟩ := allocWithOptions_carve hpos hs hsplit hpre hb
    obtain ⟨hlo, -⟩ := hb.place_bounds
    -- the block of the allocation stands between what is left of `b` and the padding
    refine .inr ⟨pool.carve hsplit hb, b.taken layout.demand, pre ++ [b.rest layout.demand],
      b.gap layout.demand ++ post, _, ?_, hrep, ?_, rfl, ?_⟩
    · rw [hrun]
      show _ = EStateM.Result.ok (b.place layout.demand - headerSize + headerSize) _
      rw [Nat.sub_add_cancel (by omega)]
    · show pre ++ (b.carve layout.demand ++ post) = _
      simp [Block.carve]
    · have hcarve := capacity_carve hb
      show capacity _ (pre ++ (b.carve layout.demand ++ post)) + 1 = _
      rw [hsplit, capacity_append, capacity_append, capacity_append, capacity_cons]
      omega

/-- The churn goes on as long as there is capacity left. -/
theorem churns_iff (hpos : 0 < layout.size) (hs : s.Represents pool.blocks)
    (hsplit : pool.blocks = pre ++ c :: post) (hsize : c.size = layout.demand.need + headerSize)
    (n : ℕ) :
    Churns layout n (c.addr + headerSize) s ↔ n ≤ capacity layout.demand pool.blocks := by
  induction n generalizing pool s c pre post with
  | zero => exact iff_of_true trivial (Nat.zero_le _)
  | succ n ih =>
    obtain ⟨m₁, hdealloc, hs₁, -⟩ := dealloc_free hs hsplit
    have hcap : capacity layout.demand (pool.free hsplit).blocks =
        capacity layout.demand pool.blocks := by
      rw [hsplit]
      exact capacity_free hsize.le
    rcases alloc_cases hpos hs₁ with ⟨hzero, halloc⟩ | ⟨pool', c', pre', post', s', halloc, hs',
      hsplit', hsize', hcap'⟩
    -- no capacity is left, and the allocation after the deallocation returns null
    · refine iff_of_false ?_ (by omega)
      rintro ⟨s₁, q, s₂, hdealloc', halloc', hne, -⟩
      rw [hdealloc] at hdealloc'
      cases hdealloc'
      rw [halloc] at halloc'
      cases halloc'
      exact hne rfl
    -- one unit is used up, and the freed block has given none back
    · have hrest := ih hs' hsplit' hsize'
      have hne : c'.addr + headerSize ≠ 0 := Nat.ne_of_gt (Nat.add_pos_right _ (by decide))
      constructor
      · rintro ⟨s₁, q, s₂, hdealloc', halloc', -, hchurn⟩
        rw [hdealloc] at hdealloc'
        cases hdealloc'
        rw [halloc] at halloc'
        cases halloc'
        have hle := hrest.1 hchurn
        omega
      · intro hle
        exact ⟨_, _, s', hdealloc, halloc, hne, hrest.2 (by omega)⟩

/-- The block of a deallocated pointer serves a request that is smaller by a header and the
alignment. -/
theorem alloc_after_dealloc (hs : s.Represents pool.blocks)
    (hsplit : pool.blocks = pre ++ c :: post) {layout' : Layout} (hpos : 0 < layout'.size)
    (hfit : layout'.demand.need + headerSize * 2 + 2 ^ layout'.demand.shift ≤ c.size) :
    ∃ s₁ q s₂, dealloc (c.addr + headerSize) s = .ok () s₁ ∧
      allocWithOptions layout' s₁ = .ok q s₂ ∧ q ≠ 0 := by
  obtain ⟨m₁, hdealloc, hs₁, -⟩ := dealloc_free hs hsplit
  have hserves : c.freed.Serves layout'.demand := ⟨rfl, hfit⟩
  have hcap : 0 < capacity layout'.demand (pool.free hsplit).blocks := by
    show 0 < capacity layout'.demand (pre ++ c.freed :: post)
    rw [capacity_append, capacity_cons, Block.capacity_of_serves hserves]
    omega
  rcases alloc_cases hpos hs₁ with ⟨hzero, -⟩ | ⟨-, c', -, -, s', halloc, -⟩
  · omega
  · exact ⟨_, _, s', hdealloc, halloc, Nat.ne_of_gt (Nat.add_pos_right _ (by decide))⟩

end FirstFitAllocator

namespace HeapSystem

open FirstFitAllocator (Churns allocWithOptions dealloc)

/-- In every reachable heap, after an allocation that succeeds, `n` repetitions of deallocating
it and allocating the same layout again succeed if and only if the free blocks could be carved
`n + 1` times for this layout before. The freed block itself serves every request whose size,
two headers and alignment fit into it. -/
theorem churns_iff_capacity (map : MemoryMapHolder) (hmap : map.Usable) (mem : Memory)
    (actions : List HeapAction) (layout : Layout) (hpos : 0 < layout.size) :
    ∃ heap bs, FirstFitAllocator.initWithMmap map { mem, firstHeader := 0 } = .ok () heap ∧
      let s := (Run.exec step actions (start heap)).heap
      s.Represents bs ∧
      ∀ p s', allocWithOptions layout s = .ok p s' → p ≠ 0 →
        (∀ n, Churns layout n p s' ↔ n + 1 ≤ capacity layout.demand bs) ∧
        ∀ layout' : Layout, 0 < layout'.size →
          layout'.demand.need + headerSize * 2 + 2 ^ layout'.demand.shift ≤
            layout.demand.need + headerSize →
          ∃ s₁ q s₂, dealloc p s' = .ok () s₁ ∧ allocWithOptions layout' s₁ = .ok q s₂ ∧
            q ≠ 0 := by
  obtain ⟨heap, hrun, hstart⟩ := sound_start hmap mem
  obtain ⟨pool, h⟩ := sound_exec hstart actions
  refine ⟨heap, pool.blocks, hrun, h.represents, ?_⟩
  intro p s' halloc hne
  rcases FirstFitAllocator.alloc_cases hpos h.represents with ⟨-, hnull⟩ | ⟨pool', c, pre, post,
    s'', halloc', hs', hsplit, hsize, hcap⟩
  · -- the null pointer is no success
    rw [hnull] at halloc
    cases halloc
    exact absurd rfl hne
  · rw [halloc'] at halloc
    cases halloc
    refine ⟨fun n => ?_, fun layout' hpos' hfit => ?_⟩
    · rw [FirstFitAllocator.churns_iff hpos hs' hsplit hsize, ← hcap]
      exact Nat.add_le_add_iff_right.symm
    · exact FirstFitAllocator.alloc_after_dealloc hs' hsplit hpos' (hsize ▸ hfit)

/-- The case of a heap of three pages and requests for a page. -/
theorem churns_iff_capacity_threePages :
    ∃ heap bs, FirstFitAllocator.initWithMmap MemoryMapHolder.threePages
        { mem := fun _ => 0, firstHeader := 0 } = .ok () heap ∧
      let s := (Run.exec step [] (start heap)).heap
      s.Represents bs ∧
      ∀ p s', allocWithOptions Layout.page4K s = .ok p s' → p ≠ 0 →
        (∀ n, Churns Layout.page4K n p s' ↔ n + 1 ≤ capacity Layout.page4K.demand bs) ∧
        ∀ layout' : Layout, 0 < layout'.size →
          layout'.demand.need + headerSize * 2 + 2 ^ layout'.demand.shift ≤
            Layout.page4K.demand.need + headerSize →
          ∃ s₁ q s₂, dealloc p s' = .ok () s₁ ∧ allocWithOptions layout' s₁ = .ok q s₂ ∧
            q ≠ 0 :=
  churns_iff_capacity MemoryMapHolder.threePages MemoryMapHolder.threePages_usable _ []
    Layout.page4K (by decide)

/-- In a heap of three pages, a client that allocates a page, frees it and asks for a page again
gets the null pointer. -/
theorem not_churns_threePages :
    ∃ heap p s', FirstFitAllocator.initWithMmap MemoryMapHolder.threePages
        { mem := fun _ => 0, firstHeader := 0 } = .ok () heap ∧
      allocWithOptions Layout.page4K heap = .ok p s' ∧ p ≠ 0 ∧ ¬Churns Layout.page4K 1 p s' := by
  obtain ⟨heap, hrun, hrep⟩ := FirstFitAllocator.initWithMmap_spec
    (s := { mem := fun _ => 0, firstHeader := 0 }) MemoryMapHolder.threePages_usable rfl
  let seed := MemoryMapHolder.threePages.seeding MemoryMapHolder.threePages_usable
  have hranges : seed.ranges = [⟨0x100000, 0x103000⟩] := MemoryMapHolder.threePages_seededRanges
  let pool := seed.pool (by rw [hranges]; decide)
  -- what is left of the three pages is too small for a page, headers and alignment
  have hcap : capacity Layout.page4K.demand pool.blocks = 1 := by
    have hblocks : pool.blocks = [⟨0x100000, 0x3000, false⟩] := by
      show seed.ranges.map Block.ofSpan = _
      rw [hranges]
      rfl
    rw [hblocks, capacity_cons, Block.capacity_of_serves (by decide),
      Block.capacity_of_not_serves (by decide)]
    rfl
  have hrep' : heap.Represents pool.blocks := hrep
  have hpos : 0 < Layout.page4K.size := by decide
  rcases FirstFitAllocator.alloc_cases hpos hrep' with
    ⟨hzero, -⟩ | ⟨pool', c, pre, post, s', halloc, hs', hsplit, hsize, hcap'⟩
  · omega
  · refine ⟨heap, _, s', hrun, halloc, Nat.ne_of_gt (Nat.add_pos_right _ (by decide)), ?_⟩
    rw [FirstFitAllocator.churns_iff (by decide) hs' hsplit hsize]
    omega

end HeapSystem

end Mushix
