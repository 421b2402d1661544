import Mushix.Allocator.Seeding
import Mushix.Lib.Run

/-!
# The allocator and its clients

The allocator together with the owners of its allocations: they allocate, deallocate what they
own, and write to the bytes they own, in any order. `HeapSystem` keeps as ghost state which
allocations are live and which were ever returned.

* `HeapSystem.Sound`: the heap is a pool of blocks, and every live allocation has an allocated
  block of its own;
* `HeapSystem.sound_step`: every step keeps this;
* `HeapSystem.reachable_sound`: it holds in every state after `init_with_mmap`.
-/

namespace Mushix

open Bytes (Memory)
open FirstFitAllocator (allocWithOptions dealloc)
open Tiling (TilesAll)

/-- A pointer that the allocator returned, and the layout it was asked for. -/
structure Allocation where
  ptr : ℕ
  layout : Layout

/-- The bytes of the allocation. -/
def Allocation.bytes (a : Allocation) : Span := ⟨a.ptr, a.ptr + a.layout.size⟩

/-- The heap and the history of its allocations. -/
structure HeapSystem where
  heap : Heap
  /-- The allocations that were not deallocated. -/
  live : List Allocation
  /-- Every allocation that was ever returned. -/
  returned : List Allocation
  /-- A call of the allocator has panicked. -/
  panicked : Bool

/-- A step of the clients. -/
inductive HeapAction where
  /-- A call of `alloc`, by any client. -/
  | alloc (layout : Layout)
  /-- `dealloc(ptr)` of a live allocation. -/
  | dealloc (ptr : ℕ)
  /-- An owner stores a byte in a live allocation. -/
  | write (addr : ℕ) (value : BitVec 8)

namespace HeapSystem

/-- No allocation yet. -/
def start (heap : Heap) : HeapSystem :=
  { heap, live := [], returned := [], panicked := false }

/-- One step of the clients. A step that they are not entitled to does not happen. -/
def step : HeapAction → HeapSystem → HeapSystem
  | .alloc layout, s =>
    match allocWithOptions layout s.heap with
    | .ok p heap =>
      -- the null pointer is no allocation
      if p = 0 then
        { s with heap }
      else
        { s with
          heap
          live := ⟨p, layout⟩ :: s.live
          returned := ⟨p, layout⟩ :: s.returned }
    | .error _ heap => { s with heap, panicked := true }
  | .dealloc ptr, s =>
    if ∃ a ∈ s.live, a.ptr = ptr then
      match FirstFitAllocator.dealloc ptr s.heap with
      | .ok _ heap => { s with heap, live := s.live.filter (·.ptr ≠ ptr) }
      | .error _ heap => { s with heap, panicked := true }
    else
      s
  | .write addr value, s =>
    if ∃ a ∈ s.live, addr ∈ a.bytes then
      { s with heap := { s.heap with mem := Function.update s.heap.mem addr value } }
    else
      s

/-- The heap is a pool of blocks. Every live allocation has an allocated block of its own, and
everything that was returned was aligned and inside a seeded range. -/
structure Sound {seed : Seeding} (pool : Pool seed) (s : HeapSystem) : Prop where
  panicked : s.panicked = false
  represents : s.heap.Represents pool.blocks
  live : ∀ a ∈ s.live, ∃ b ∈ pool.blocks, b.isAllocated = true ∧ a.ptr = b.addr + headerSize ∧
    a.bytes.Within b.payload
  distinct : s.live.Pairwise fun a a' => a.ptr ≠ a'.ptr
  returned : ∀ a ∈ s.returned, a.ptr % a.layout.align = 0 ∧ ∃ r ∈ seed.ranges, a.bytes.Within r

variable {seed : Seeding} {pool : Pool seed} {s : HeapSystem} {layout : Layout} {b : Block}
  {pre post : List Block} {ptr addr : ℕ}

/-! ## The steps -/

/-- An allocation that finds no block changes nothing. -/
theorem step_alloc_none (h : Sound pool s)
    (hnot : ∀ c ∈ pool.blocks, layout.size = 0 ∨ ¬c.Serves layout.demand) :
    step (.alloc layout) s = s := by
  have hrun := FirstFitAllocator.allocWithOptions_none h.represents hnot
  rw [step, hrun]
  rfl

/-- An allocation that finds a block. -/
theorem step_alloc_some (h : Sound pool s) (hpos : 0 < layout.size)
    (hsplit : pool.blocks = pre ++ b :: post) (hpre : ∀ c ∈ pre, ¬c.Serves layout.demand)
    (hb : b.Serves layout.demand) :
    ∃ m', allocWithOptions layout s.heap =
        .ok (b.place layout.demand) { s.heap with mem := m' } ∧
      b.place layout.demand ≠ 0 ∧
      step (.alloc layout) s =
        { s with
          heap := { s.heap with mem := m' }
          live := ⟨b.place layout.demand, layout⟩ :: s.live
          returned := ⟨b.place layout.demand, layout⟩ :: s.returned } ∧
      ({ s.heap with mem := m' } : Heap).Represents (pool.carve hsplit hb).blocks ∧
      ∀ x, x ∉ b.span → m' x = s.heap.mem x := by
  obtain ⟨m', hrun, hrep, hsame⟩ :=
    FirstFitAllocator.allocWithOptions_carve hpos h.represents hsplit hpre hb
  obtain ⟨hlo, -⟩ := hb.place_bounds
  obtain ⟨haddr, -, -⟩ := pool.mem_bounds (Pool.mem_of_split hsplit)
  have hne : b.place layout.demand ≠ 0 := by omega
  refine ⟨m', hrun, hne, ?_, hrep, hsame⟩
  rw [step, hrun]
  exact if_neg hne

/-- An allocation takes a part of a free block. -/
theorem sound_alloc_some (h : Sound pool s) (hpos : 0 < layout.size)
    (hsplit : pool.blocks = pre ++ b :: post) (hpre : ∀ c ∈ pre, ¬c.Serves layout.demand)
    (hb : b.Serves layout.demand) :
    Sound (pool.carve hsplit hb) (step (.alloc layout) s) := by
  obtain ⟨m', -, hne, hstep, hrep, -⟩ := step_alloc_some h hpos hsplit hpre hb
  obtain ⟨hlo, hsum⟩ := hb.place_bounds
  have hmem : b ∈ pool.blocks := Pool.mem_of_split hsplit
  have hhead : 0 < headerSize := by decide
  have hsize := layout.size_le_need
  let new : Allocation := ⟨b.place layout.demand, layout⟩
  -- the block of a live allocation is allocated, so it is not the one that is carved
  have hother : ∀ c ∈ pool.blocks, c.isAllocated = true → c ∈ pre ∨ c ∈ post :=
    fun _ => Pool.mem_others_of_split hsplit hb.1
  have hbytes : new.bytes.Within b.payload := by
    refine ⟨?_, ?_⟩
    · show b.addr + headerSize ≤ b.place layout.demand
      omega
    · show b.place layout.demand + layout.size ≤ b.addr + b.size
      omega
  rw [hstep]
  refine ⟨h.panicked, hrep, ?_, ?_, ?_⟩
  · intro a ha
    rcases List.mem_cons.1 ha with rfl | ha
    -- the new allocation has the block that was taken
    · refine ⟨b.taken layout.demand, List.mem_append_right pre (by simp [Block.carve]), rfl, ?_,
        ?_, ?_⟩
      · show b.place layout.demand = b.place layout.demand - headerSize + headerSize
        omega
      · show b.place layout.demand - headerSize + headerSize ≤ b.place layout.demand
        omega
      · show b.place layout.demand + layout.size ≤
          b.place layout.demand - headerSize + (layout.demand.need + headerSize)
        omega
    -- an older one keeps its block
    · obtain ⟨c, hc, hallocated, hptr, hin⟩ := h.live a ha
      exact ⟨c, Pool.mem_replaced_iff.2 (.inr (hother c hc hallocated)), hallocated, hptr, hin⟩
  · refine .cons (fun a ha => ?_) h.distinct
    obtain ⟨c, hc, hallocated, hptr, -⟩ := h.live a ha
    have hapart := (Pool.apart_of_split hsplit (hother c hc hallocated)).le_or_le
      (pool.tiles.mem hc).1 (pool.tiles.mem hmem).1
    have hapart : c.addr + c.size ≤ b.addr ∨ b.addr + b.size ≤ c.addr := hapart
    show b.place layout.demand ≠ a.ptr
    omega
  · intro a ha
    rcases List.mem_cons.1 ha with rfl | ha
    · obtain ⟨-, r, hr, hin⟩ := pool.tiles.mem hmem
      refine ⟨layout.mod_align (Block.place_mod b layout.demand), r, hr, ?_⟩
      have hpayload : b.payload.Within b.span := ⟨Nat.le_add_right _ _, le_rfl⟩
      exact (hbytes.trans hpayload).trans hin
    · exact h.returned a ha

theorem sound_alloc (h : Sound pool s) (layout : Layout) :
    ∃ pool' : Pool seed, Sound pool' (step (.alloc layout) s) := by
  rcases Nat.eq_zero_or_pos layout.size with hzero | hpos
  · rw [step_alloc_none h fun _ _ => .inl hzero]
    exact ⟨pool, h⟩
  cases hfit : firstFit layout.demand pool.blocks with
  | none =>
    rw [step_alloc_none h fun c hc => .inr (firstFit_eq_none.1 hfit c hc)]
    exact ⟨pool, h⟩
  | some found =>
    obtain ⟨p, bs⟩ := found
    obtain ⟨pre, b, post, hsplit, hpre, hb, -, -⟩ := firstFit_eq_some hfit
    exact ⟨pool.carve hsplit hb, sound_alloc_some h hpos hsplit hpre hb⟩

/-- The deallocation of a live allocation frees its block. -/
theorem sound_dealloc_live (h : Sound pool s) {a : Allocation} (ha : a ∈ s.live) :
    ∃ (b : Block) (pre post : List Block) (hsplit : pool.blocks = pre ++ b :: post) (m' : Memory),
      a.ptr = b.addr + headerSize ∧
      FirstFitAllocator.dealloc a.ptr s.heap = .ok () { s.heap with mem := m' } ∧
      step (.dealloc a.ptr) s =
        { s with
          heap := { s.heap with mem := m' }
          live := s.live.filter (·.ptr ≠ a.ptr) } ∧
      Sound (pool.free hsplit) (step (.dealloc a.ptr) s) ∧
      ∀ x, x ∉ b.header → m' x = s.heap.mem x := by
  obtain ⟨b, hb, -, hptr, -⟩ := h.live a ha
  obtain ⟨pre, post, hsplit⟩ := List.append_of_mem hb
  obtain ⟨m', hrun, hrep, hsame⟩ := FirstFitAllocator.dealloc_free h.represents hsplit
  rw [← hptr] at hrun
  have hstep : step (.dealloc a.ptr) s =
      { s with
        heap := { s.heap with mem := m' }
        live := s.live.filter (·.ptr ≠ a.ptr) } := by
    rw [step, if_pos ⟨a, ha, rfl⟩, hrun]
  refine ⟨b, pre, post, hsplit, m', hptr, hrun, hstep, ?_, hsame⟩
  rw [hstep]
  refine ⟨h.panicked, hrep, ?_, h.distinct.filter _, h.returned⟩
  intro a' ha'
  obtain ⟨ha', hne⟩ := List.mem_filter.1 ha'
  -- the pointers of live allocations are distinct, so the freed block is that of no other one
  obtain ⟨c, hc, hallocated, hptr', hin⟩ := h.live a' ha'
  refine ⟨c, Pool.mem_replaced_iff.2 (.inr ?_), hallocated, hptr', hin⟩
  refine ((Pool.mem_iff_of_split hsplit).1 hc).resolve_left ?_
  rintro rfl
  exact absurd (hptr'.trans hptr.symm) (of_decide_eq_true hne)

/-- A deallocation frees the block of the allocation. -/
theorem sound_dealloc (h : Sound pool s) (ptr : ℕ) :
    ∃ pool' : Pool seed, Sound pool' (step (.dealloc ptr) s) := by
  by_cases hlive : ∃ a ∈ s.live, a.ptr = ptr
  · obtain ⟨a, ha, rfl⟩ := hlive
    obtain ⟨b, pre, post, hsplit, m', -, -, -, hsound, -⟩ := sound_dealloc_live h ha
    exact ⟨pool.free hsplit, hsound⟩
  · rw [step, if_neg hlive]
    exact ⟨pool, h⟩

/-- A store of an owner changes no header. -/
theorem sound_write (h : Sound pool s) (addr : ℕ) (value : BitVec 8) :
    Sound pool (step (.write addr value) s) := by
  rw [step]
  split
  case isFalse => exact h
  case isTrue howner =>
    obtain ⟨a, ha, hx⟩ := howner
    obtain ⟨b, hb, -, -, hin⟩ := h.live a ha
    exact ⟨h.panicked, FirstFitAllocator.represents_update h.represents hb (hin.mem hx) value,
      h.live, h.distinct, h.returned⟩

/-- Every step keeps the heap a pool of blocks. -/
theorem sound_step (h : ∃ pool : Pool seed, Sound pool s) (action : HeapAction) :
    ∃ pool : Pool seed, Sound pool (step action s) := by
  obtain ⟨pool, h⟩ := h
  cases action with
  | alloc layout => exact sound_alloc h layout
  | dealloc ptr => exact sound_dealloc h ptr
  | write addr value => exact ⟨pool, sound_write h addr value⟩

/-- In every state of every run the heap is a pool of blocks. -/
theorem sound_exec (h : ∃ pool : Pool seed, Sound pool s) (actions : List HeapAction) :
    ∃ pool : Pool seed, Sound pool (Run.exec step actions s) := by
  have htrue : Run.Always step (fun _ => True) actions s :=
    Run.always_of_forall (fun _ => trivial) actions s
  exact htrue.exec_of_step (D := fun s => ∃ pool : Pool seed, Sound pool s)
    (fun _ action _ h => sound_step h action) h

/-- Before the first allocation. -/
theorem Sound.start {heap : Heap} (h : heap.Represents pool.blocks) :
    Sound pool (HeapSystem.start heap) := by
  refine ⟨rfl, h, ?_, .nil, ?_⟩
  · intro a ha
    cases ha
  · intro a ha
    cases ha

/-- After `init_with_mmap` there is a block for every seeded range. -/
theorem sound_start_blocks {map : MemoryMapHolder} (hmap : map.Usable) (mem : Memory) :
    ∃ heap, FirstFitAllocator.initWithMmap map { mem, firstHeader := 0 } = .ok () heap ∧
      ∃ pool : Pool (map.seeding hmap), pool.blocks = map.seededRanges.map Block.ofSpan ∧
        Sound pool (start heap) := by
  obtain ⟨heap, hrun, hrep⟩ :=
    FirstFitAllocator.initWithMmap_spec (s := { mem, firstHeader := 0 }) hmap rfl
  have hpos : ∀ r ∈ (map.seeding hmap).ranges, r.lo < r.hi := by
    intro r hr
    obtain ⟨e, -, he⟩ := MemoryMapHolder.mem_seededRanges hr
    have hlt := (EfiMemoryDescriptor.seededRange_eq_some he).2.2
    omega
  exact ⟨heap, hrun, (map.seeding hmap).pool hpos, rfl, .start hrep⟩

/-- After `init_with_mmap` the heap is a pool of blocks. -/
theorem sound_start {map : MemoryMapHolder} (hmap : map.Usable) (mem : Memory) :
    ∃ heap, FirstFitAllocator.initWithMmap map { mem, firstHeader := 0 } = .ok () heap ∧
      ∃ pool : Pool (map.seeding hmap), Sound pool (start heap) := by
  obtain ⟨heap, hrun, pool, -, h⟩ := sound_start_blocks hmap mem
  exact ⟨heap, hrun, pool, h⟩

/-! ## What holds in every state -/

/-- A live allocation is disjoint from every header. -/
theorem Sound.apart_header (h : Sound pool s) {a : Allocation} (ha : a ∈ s.live)
    (hb : b ∈ pool.blocks) : a.bytes.Apart b.header := by
  obtain ⟨c, hc, -, -, hin⟩ := h.live a ha
  exact Span.apart_iff.2 fun x hx => FirstFitAllocator.not_mem_header hc (hin.mem hx) hb

/-- A live allocation is disjoint from every free block. -/
theorem Sound.apart_free (h : Sound pool s) {a : Allocation} (ha : a ∈ s.live)
    (hb : b ∈ pool.blocks) (hfree : b.isAllocated = false) : a.bytes.Apart b.span := by
  obtain ⟨c, hc, hallocated, -, hin⟩ := h.live a ha
  obtain ⟨pre, post, hsplit⟩ := List.append_of_mem hb
  have hapart := Pool.apart_of_split hsplit (Pool.mem_others_of_split hsplit hfree hc hallocated)
  have hspan : c.payload.Within c.span := ⟨Nat.le_add_right _ _, le_rfl⟩
  exact hapart.of_within (hin.trans hspan) ⟨le_rfl, le_rfl⟩

/-- Live allocations with different pointers are disjoint. -/
theorem Sound.apart_of_ne (h : Sound pool s) {a a' : Allocation} (ha : a ∈ s.live)
    (ha' : a' ∈ s.live) (hne : a.ptr ≠ a'.ptr) : a.bytes.Apart a'.bytes := by
  obtain ⟨b, hb, -, hptr, hin⟩ := h.live a ha
  obtain ⟨c, hc, -, hptr', hin'⟩ := h.live a' ha'
  obtain ⟨pre, post, hsplit⟩ := List.append_of_mem hb
  have hc' : c ∈ pre ∨ c ∈ post := by
    refine ((Pool.mem_iff_of_split hsplit).1 hc).resolve_left ?_
    rintro rfl
    exact absurd (hptr.trans hptr'.symm) hne
  have hspan : ∀ b : Block, b.payload.Within b.span := fun b => ⟨Nat.le_add_right _ _, le_rfl⟩
  exact (Pool.apart_of_split hsplit hc').symm.of_within (hin.trans (hspan b))
    (hin'.trans (hspan c))

/-- Live allocations are disjoint. -/
theorem Sound.live_apart (h : Sound pool s) :
    s.live.Pairwise fun a a' => a.bytes.Apart a'.bytes :=
  h.distinct.imp_of_mem fun ha ha' hne => h.apart_of_ne ha ha' hne

/-- Whatever the clients do after `init_with_mmap`: the chain of headers is finite, visits no
address twice and tiles every seeded range; every pointer ever returned is aligned and its bytes
lie in a seeded range; and the bytes of a live allocation are disjoint from every header and
from every other live allocation. -/
theorem reachable_sound (map : MemoryMapHolder) (hmap : map.Usable) (mem : Memory)
    (actions : List HeapAction) :
    ∃ heap, FirstFitAllocator.initWithMmap map { mem, firstHeader := 0 } = .ok () heap ∧
      let s := Run.exec step actions (start heap)
      s.panicked = false ∧
      (∃ bs, s.heap.Represents bs ∧ (bs.map Block.addr).Nodup ∧
        TilesAll Block.span map.seededRanges bs ∧
        ∀ a ∈ s.live, ∀ b ∈ bs, a.bytes.Apart b.header) ∧
      (∀ a ∈ s.returned, a.ptr % a.layout.align = 0 ∧
        ∃ r ∈ map.seededRanges, a.bytes.Within r) ∧
      s.live.Pairwise fun a a' => a.bytes.Apart a'.bytes := by
  obtain ⟨heap, hrun, hstart⟩ := sound_start hmap mem
  refine ⟨heap, hrun, ?_⟩
  obtain ⟨pool, h⟩ := sound_exec hstart actions
  refine ⟨h.panicked, ⟨pool.blocks, h.represents, pool.addr_nodup, pool.tiles, ?_⟩, h.returned,
    h.live_apart⟩
  exact fun a ha b hb => h.apart_header ha hb

/-- A run in a heap of three pages. -/
theorem reachable_sound_threePages :
    ∃ heap, FirstFitAllocator.initWithMmap MemoryMapHolder.threePages
        { mem := fun _ => 0, firstHeader := 0 } = .ok () heap ∧
      let s := Run.exec step [.alloc Layout.page4K, .alloc Layout.page4K, .write 0x102000 1,
        .dealloc 0x102000] (start heap)
      s.panicked = false ∧
      (∃ bs, s.heap.Represents bs ∧ (bs.map Block.addr).Nodup ∧
        TilesAll Block.span MemoryMapHolder.threePages.seededRanges bs ∧
        ∀ a ∈ s.live, ∀ b ∈ bs, a.bytes.Apart b.header) ∧
      (∀ a ∈ s.returned, a.ptr % a.layout.align = 0 ∧
        ∃ r ∈ MemoryMapHolder.threePages.seededRanges, a.bytes.Within r) ∧
      s.live.Pairwise fun a a' => a.bytes.Apart a'.bytes :=
  reachable_sound MemoryMapHolder.threePages MemoryMapHolder.threePages_usable _ _

end HeapSystem

end Mushix
