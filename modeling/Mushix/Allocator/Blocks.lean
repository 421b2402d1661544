import Mushix.Allocator.Header
import Mushix.Lib.Tiling

/-!
# Blocks of a heap

What the first-fit allocator is for, without memory and pointers: the seeded ranges are tiled
by blocks, an allocation is carved from the end of the first free block that is large enough,
and a freed block becomes free where it lies.

* `Demand`: the size and the alignment of a request after rounding;
* `Block.carve`: what becomes of a block that serves a demand (`Block.carve_tiles`);
* `firstFit`: the allocation in a list of blocks;
* `Pool`: blocks that tile the ranges of a `Seeding`.
-/

namespace Mushix

open Tiling (Tiles TilesAll)

/-- A header and the bytes up to the next one. -/
structure Block where
  addr : ℕ
  size : ℕ
  isAllocated : Bool
  deriving DecidableEq, Repr

/-- A request: bytes in multiples of a header, aligned to `2 ^ shift`. -/
structure Demand where
  need : ℕ
  shift : ℕ
  need_pos : 0 < need
  need_dvd : 32 ∣ need
  five_le_shift : 5 ≤ shift
  shift_lt : shift < 64
  fits : need + headerSize * 2 + 2 ^ shift < 2 ^ 64

namespace Block

/-- All bytes of the block. -/
def span (b : Block) : Span := ⟨b.addr, b.addr + b.size⟩

/-- The bytes of its header. -/
def header (b : Block) : Span := ⟨b.addr, b.addr + headerSize⟩

/-- The bytes behind its header. -/
def payload (b : Block) : Span := ⟨b.addr + headerSize, b.addr + b.size⟩

/-- The block lies on the grid of headers. -/
def Granular (b : Block) : Prop := 32 ∣ b.addr ∧ 32 ∣ b.size

/-- The block is free, and large enough for the demand, two headers and the loss by
alignment. -/
def Serves (b : Block) (d : Demand) : Prop :=
  b.isAllocated = false ∧ d.need + headerSize * 2 + 2 ^ d.shift ≤ b.size

instance (b : Block) (d : Demand) : Decidable (b.Serves d) :=
  inferInstanceAs (Decidable (_ ∧ _))

/-- The bytes lost behind the allocation. -/
def padding (b : Block) (d : Demand) : ℕ := (b.addr + b.size - d.need) % 2 ^ d.shift

/-- The address of the allocation. -/
def place (b : Block) (d : Demand) : ℕ := b.addr + b.size - d.need - b.padding d

/-- What is left of the block. -/
def rest (b : Block) (d : Demand) : Block :=
  { b with size := b.place d - headerSize - b.addr }

/-- The block of the allocation. -/
def taken (b : Block) (d : Demand) : Block :=
  { addr := b.place d - headerSize, size := d.need + headerSize, isAllocated := true }

/-- The block of the padding, where there is any. -/
def gap (b : Block) (d : Demand) : List Block :=
  if b.padding d = 0 then []
  else [{ addr := b.place d + d.need, size := b.padding d, isAllocated := false }]

/-- The blocks that replace a block which serves a demand. -/
def carve (b : Block) (d : Demand) : List Block := b.rest d :: b.taken d :: b.gap d

/-- The block after `dealloc`. -/
def freed (b : Block) : Block := { b with isAllocated := false }

end Block

/-- Allocation in the first block that serves the demand: its address and the blocks
afterwards. -/
def firstFit (d : Demand) : List Block → Option (ℕ × List Block)
  | [] => none
  | b :: bs =>
    if b.Serves d then some (b.place d, b.carve d ++ bs)
    else (firstFit d bs).map fun (p, bs) => (p, b :: bs)

/-- An aligned address lies on the grid of headers. -/
theorem Demand.dvd_align (d : Demand) : 32 ∣ 2 ^ d.shift := by
  rw [show 32 = 2 ^ 5 from rfl]
  exact Nat.pow_dvd_pow 2 d.five_le_shift

namespace Block

variable {b c : Block} {d : Demand}

/-- The block of the padding is free and has all of it. -/
theorem eq_of_mem_gap (hc : c ∈ b.gap d) :
    c = { addr := b.place d + d.need, size := b.padding d, isAllocated := false } := by
  rw [gap, List.mem_ite_nil_left] at hc
  exact List.mem_singleton.1 hc.2

/-- The parts of a block that serves a demand add up. -/
theorem Serves.place_bounds (h : b.Serves d) :
    b.addr + headerSize * 2 ≤ b.place d ∧
      b.place d + d.need + b.padding d = b.addr + b.size := by
  -- the padding is less than the alignment, which `Serves` has counted in
  have hmod : b.padding d < 2 ^ d.shift := Nat.mod_lt _ (Nat.two_pow_pos _)
  have hsize := h.2
  rw [place]
  omega

/-- The allocation is aligned. -/
theorem place_mod (b : Block) (d : Demand) : b.place d % 2 ^ d.shift = 0 :=
  Nat.sub_mod_eq_zero_of_mod_eq (Nat.mod_mod _ _).symm

/-- The padding is a multiple of a header. -/
theorem Granular.dvd_padding (hb : b.Granular) (d : Demand) : 32 ∣ b.padding d := by
  obtain ⟨haddr, hsize⟩ := hb
  -- the end and the need are on the grid
  have hend : 32 ∣ b.addr + b.size - d.need :=
    Nat.dvd_sub (Nat.dvd_add haddr hsize) d.need_dvd
  exact (Nat.dvd_mod_iff d.dvd_align).2 hend

/-- The blocks that replace a block tile its bytes. -/
theorem Serves.carve_tiles (h : b.Serves d) : Tiles span b.span (b.carve d) := by
  obtain ⟨hlo, hsum⟩ := h.place_bounds
  have hneed := d.need_pos
  have hpos : 0 < headerSize := by decide
  -- `rest`, `taken` and `gap` follow each other without a gap between them
  have hrest : (b.rest d).span.hi = (b.taken d).span.lo := by
    show b.addr + (b.place d - headerSize - b.addr) = b.place d - headerSize
    omega
  refine ⟨rfl, ?_, hrest.symm, ?_, ?_⟩
  · show b.addr < b.addr + (b.place d - headerSize - b.addr)
    omega
  · rw [hrest]
    show b.place d - headerSize < b.place d - headerSize + (d.need + headerSize)
    omega
  · have htaken : (b.taken d).span.hi = b.place d + d.need := by
      show b.place d - headerSize + (d.need + headerSize) = _
      omega
    rw [htaken, gap]
    split
    · show b.place d + d.need = b.addr + b.size
      omega
    · refine ⟨rfl, ?_, ?_⟩
      · show b.place d + d.need < b.place d + d.need + b.padding d
        omega
      · exact hsum

/-- The blocks that replace a block lie on the grid of headers. -/
theorem Granular.carve (hb : b.Granular) (h : b.Serves d) : ∀ c ∈ b.carve d, c.Granular := by
  obtain ⟨hlo, hsum⟩ := h.place_bounds
  have hplace : 32 ∣ b.place d :=
    d.dvd_align.trans (Nat.dvd_of_mod_eq_zero (place_mod b d))
  have hpadding := hb.dvd_padding d
  have haddr := hb.1
  have hneed := d.need_dvd
  unfold headerSize at hlo
  intro c hc
  rcases List.mem_cons.1 hc with rfl | hc
  · refine ⟨haddr, ?_⟩
    show 32 ∣ b.place d - 32 - b.addr
    omega
  rcases List.mem_cons.1 hc with rfl | hc
  · refine ⟨?_, ?_⟩
    · show 32 ∣ b.place d - 32
      omega
    · show 32 ∣ d.need + 32
      omega
  · obtain rfl := eq_of_mem_gap hc
    exact ⟨Nat.dvd_add hplace hneed, hpadding⟩

end Block

section FirstFit

variable {d : Demand} {bs bs' : List Block} {p : ℕ}

/-- Without a block that serves the demand there is no allocation. -/
theorem firstFit_eq_none : firstFit d bs = none ↔ ∀ b ∈ bs, ¬b.Serves d := by
  induction bs with
  | nil => simp [firstFit]
  | cons b bs ih =>
    rw [firstFit]
    by_cases hb : b.Serves d
    · simp [hb]
    · simp [hb, ih]

/-- An allocation carves the first block that serves the demand. -/
theorem firstFit_eq_some (h : firstFit d bs = some (p, bs')) :
    ∃ pre b post, bs = pre ++ b :: post ∧ (∀ c ∈ pre, ¬c.Serves d) ∧ b.Serves d ∧
      p = b.place d ∧ bs' = pre ++ (b.carve d ++ post) := by
  induction bs generalizing bs' with
  | nil => cases h
  | cons b bs ih =>
    rw [firstFit] at h
    split at h
    case isTrue hb =>
      cases h
      exact ⟨[], b, bs, rfl, by simp, hb, rfl, rfl⟩
    case isFalse hb =>
      obtain ⟨⟨q, cs⟩, hrest, heq⟩ := Option.map_eq_some_iff.1 h
      cases heq
      obtain ⟨pre, c, post, rfl, hpre, hc, hp, rfl⟩ := ih hrest
      refine ⟨b :: pre, c, post, rfl, ?_, hc, hp, rfl⟩
      intro e he
      rcases List.mem_cons.1 he with rfl | he
      · exact hb
      · exact hpre e he

end FirstFit

/-- The ranges of memory that a heap is made of. -/
structure Seeding where
  ranges : List Span
  apart : ranges.Pairwise Span.Apart
  lo_pos : ∀ r ∈ ranges, 0 < r.lo
  hi_lt : ∀ r ∈ ranges, r.hi < 2 ^ 64
  lo_dvd : ∀ r ∈ ranges, 32 ∣ r.lo
  hi_dvd : ∀ r ∈ ranges, 32 ∣ r.hi

/-- Blocks on the grid of headers that tile the ranges. -/
structure Pool (seed : Seeding) where
  blocks : List Block
  tiles : TilesAll Block.span seed.ranges blocks
  granular : ∀ b ∈ blocks, b.Granular

namespace Pool

variable {seed : Seeding} {pool : Pool seed} {b c : Block} {d : Demand} {pre post : List Block}

/-- A block is the one at a place of the list, or one of the others. -/
theorem mem_iff_of_split (h : pool.blocks = pre ++ b :: post) :
    c ∈ pool.blocks ↔ c = b ∨ c ∈ pre ∨ c ∈ post := by
  rw [h, List.mem_append, List.mem_cons, or_left_comm]

/-- The block where the chain is split is one of the chain. -/
theorem mem_of_split (h : pool.blocks = pre ++ b :: post) : b ∈ pool.blocks :=
  (mem_iff_of_split h).2 (.inl rfl)

/-- An allocated block is one of the others when the block at this place is free. -/
theorem mem_others_of_split (h : pool.blocks = pre ++ b :: post) (hb : b.isAllocated = false)
    (hc : c ∈ pool.blocks) (hallocated : c.isAllocated = true) : c ∈ pre ∨ c ∈ post := by
  refine ((mem_iff_of_split h).1 hc).resolve_left ?_
  rintro rfl
  rw [hb] at hallocated
  cases hallocated

/-- `mem_iff_of_split` for a list in which the block was replaced. -/
theorem mem_replaced_iff {bs : List Block} :
    c ∈ pre ++ (bs ++ post) ↔ c ∈ bs ∨ c ∈ pre ∨ c ∈ post := by
  rw [List.mem_append, List.mem_append, or_left_comm]

/-- A block has a place in the address space, and room for its header. -/
theorem mem_bounds (hb : b ∈ pool.blocks) :
    0 < b.addr ∧ headerSize ≤ b.size ∧ b.addr + b.size < 2 ^ 64 := by
  -- the block is inside one of the ranges that the heap was made from
  obtain ⟨hpos, r, hr, hin⟩ := pool.tiles.mem hb
  have hlo := seed.lo_pos r hr
  have hhi := seed.hi_lt r hr
  have hsize := (pool.granular b hb).2
  have hlo' : r.lo ≤ b.addr := hin.1
  have hhi' : b.addr + b.size ≤ r.hi := hin.2
  have hpos' : b.addr < b.addr + b.size := hpos
  refine ⟨by omega, ?_, by omega⟩
  unfold headerSize
  omega

/-- The header of a block is inside the block. -/
theorem header_within (pool : Pool seed) (hb : b ∈ pool.blocks) : b.header.Within b.span :=
  ⟨le_rfl, Nat.add_le_add_left (pool.mem_bounds hb).2.1 b.addr⟩

/-- No byte belongs to two blocks. -/
theorem pairwise_apart (pool : Pool seed) :
    pool.blocks.Pairwise fun b c => b.span.Apart c.span :=
  pool.tiles.pairwise_apart seed.apart

/-- The bytes of one block are apart from the blocks before and behind it. -/
theorem apart_of_split (h : pool.blocks = pre ++ b :: post) (hc : c ∈ pre ∨ c ∈ post) :
    c.span.Apart b.span := by
  have hapart := pool.pairwise_apart
  rw [h] at hapart
  obtain ⟨-, hpost, hpre⟩ := List.pairwise_append.1 hapart
  rcases hc with hc | hc
  · exact hpre c hc b List.mem_cons_self
  · exact ((List.pairwise_cons.1 hpost).1 c hc).symm

/-- No two blocks begin at the same address. -/
theorem addr_nodup (pool : Pool seed) : (pool.blocks.map Block.addr).Nodup := by
  refine List.pairwise_map.2 (pool.pairwise_apart.imp_of_mem fun {b c} hb hc hapart => ?_)
  obtain ⟨-, hb, -⟩ := pool.mem_bounds hb
  obtain ⟨-, hc, -⟩ := pool.mem_bounds hc
  have hpos : 0 < headerSize := by decide
  -- blocks that begin at one address would share their first byte
  have hle : min (b.addr + b.size) (c.addr + c.size) ≤ max b.addr c.addr := hapart
  omega

/-- There are fewer blocks than addresses. -/
theorem length_le (pool : Pool seed) : pool.blocks.length ≤ 2 ^ 64 := by
  have hsub : pool.blocks.map Block.addr ⊆ List.range (2 ^ 64) := by
    intro a ha
    obtain ⟨b, hb, rfl⟩ := List.mem_map.1 ha
    have := pool.mem_bounds hb
    exact List.mem_range.2 (by omega)
  have hle := (List.subperm_of_subset pool.addr_nodup hsub).length_le
  rwa [List.length_map, List.length_range] at hle

/-- The pool with a block carved. -/
def carve (pool : Pool seed) (h : pool.blocks = pre ++ b :: post) (hb : b.Serves d) :
    Pool seed where
  blocks := pre ++ (b.carve d ++ post)
  tiles := pool.tiles.replace h hb.carve_tiles
  granular := by
    intro c hc
    rcases mem_replaced_iff.1 hc with hnew | hother
    · exact (pool.granular b (mem_of_split h)).carve hb c hnew
    · exact pool.granular c ((mem_iff_of_split h).2 (.inr hother))

/-- The pool with a block freed. -/
def free (pool : Pool seed) (h : pool.blocks = pre ++ b :: post) : Pool seed where
  blocks := pre ++ ([b.freed] ++ post)
  tiles := pool.tiles.replace h (.singleton (pool.tiles.mem (mem_of_split h)).1)
  granular := by
    intro c hc
    rcases mem_replaced_iff.1 hc with hnew | hother
    · obtain rfl := List.mem_singleton.1 hnew
      exact pool.granular b (mem_of_split h)
    · exact pool.granular c ((mem_iff_of_split h).2 (.inr hother))

end Pool

end Mushix
