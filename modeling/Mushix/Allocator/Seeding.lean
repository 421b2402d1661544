import Mushix.Allocator.Refinement

/-!
# Seeding the allocator

The ranges of memory that `init_with_mmap` hands to the allocator, and the heap it builds: one
free block for every range, the range visited last in front.

* `EfiMemoryDescriptor.seededRange`: what a descriptor contributes;
* `MemoryMapHolder.Usable`: what the firmware promises about its memory map;
* `MemoryMapHolder.seeding`: the ranges of a usable memory map;
* `FirstFitAllocator.initWithMmap_represents`, `FirstFitAllocator.initWithMmap_spec`: the heap
  after `init_with_mmap`.
-/

namespace Mushix

/-- The type of the descriptor is `CONVENTIONAL_MEMORY`. -/
def EfiMemoryDescriptor.IsConventional (e : EfiMemoryDescriptor) : Prop :=
  e.memoryType = EfiMemoryType.conventionalMemory.discriminant

instance : DecidablePred EfiMemoryDescriptor.IsConventional :=
  fun e => inferInstanceAs (Decidable (e.memoryType = _))

/-- The memory that the descriptor describes. -/
def EfiMemoryDescriptor.span (e : EfiMemoryDescriptor) : Span :=
  ⟨e.physicalStart, e.physicalStart + e.numberOfPages * 4096⟩

/-- The memory without the page at address 0. -/
def EfiMemoryDescriptor.usableSpan (e : EfiMemoryDescriptor) : Span :=
  ⟨if e.physicalStart = 0 then 4096 else e.physicalStart, e.span.hi⟩

/-- The range that a descriptor contributes to the heap, of more than a page of conventional
memory. -/
def EfiMemoryDescriptor.seededRange (e : EfiMemoryDescriptor) : Option Span :=
  if e.IsConventional ∧ e.usableSpan.lo + 4096 < e.usableSpan.hi then some e.usableSpan else none

/-- The start of the memory and its size in bytes are words. -/
structure EfiMemoryDescriptor.Fits (e : EfiMemoryDescriptor) : Prop where
  physicalStart : e.physicalStart < 2 ^ 64
  size : e.numberOfPages * 4096 < 2 ^ 64

namespace MemoryMapHolder

/-- The conventional memory is aligned to pages, disjoint and ends below `2 ^ 64`. -/
structure Usable (map : MemoryMapHolder) : Prop where
  descriptorSize_pos : 0 < map.descriptorSize
  aligned : ∀ e ∈ map.descriptors, e.IsConventional → 4096 ∣ e.physicalStart
  below : ∀ e ∈ map.descriptors, e.IsConventional → e.span.hi < 2 ^ 64
  apart : map.descriptors.Pairwise fun e e' =>
    e.IsConventional → e'.IsConventional → e.span.Apart e'.span

/-- The seeded ranges in the order of the headers, which is opposite to the order of the
descriptors. -/
def seededRanges (map : MemoryMapHolder) : List Span :=
  (map.descriptors.filterMap EfiMemoryDescriptor.seededRange).reverse

end MemoryMapHolder

/-- A free block that fills a range. -/
def Block.ofSpan (r : Span) : Block := ⟨r.lo, r.hi - r.lo, false⟩

/-- The headers at the beginning of the ranges do not overlap. -/
def HeadersApart (r r' : Span) : Prop :=
  (Block.ofSpan r).header.Apart (Block.ofSpan r').header

namespace EfiMemoryDescriptor

variable {e e' : EfiMemoryDescriptor} {r r' : Span}

/-- What is usable lies in the range of the descriptor. -/
theorem usableSpan_within (e : EfiMemoryDescriptor) : e.usableSpan.Within e.span := by
  refine ⟨?_, le_rfl⟩
  show e.physicalStart ≤ if e.physicalStart = 0 then 4096 else e.physicalStart
  split <;> omega

/-- Which descriptors seed the heap, and with what. -/
theorem seededRange_eq_some (h : e.seededRange = some r) :
    e.IsConventional ∧ r = e.usableSpan ∧ r.lo + 4096 < r.hi := by
  rw [seededRange] at h
  split at h
  case isTrue hcond =>
    cases h
    exact ⟨hcond.1, rfl, hcond.2⟩
  case isFalse => cases h

/-- The range of a descriptor lies inside the memory it describes. -/
theorem seededRange_within (h : e.seededRange = some r) : r.Within e.span := by
  obtain ⟨-, rfl, -⟩ := seededRange_eq_some h
  exact e.usableSpan_within

/-- A range that ends in the address space belongs to a descriptor that fits. -/
theorem fits_of_hi_lt (h : e.span.hi < 2 ^ 64) : e.Fits :=
  ⟨(Nat.le_add_right _ _).trans_lt h, (Nat.le_add_left _ _).trans_lt h⟩

/-- The address 0 is never part of the heap. -/
theorem seededRange_lo_pos (h : e.seededRange = some r) : 0 < r.lo := by
  obtain ⟨-, rfl, -⟩ := seededRange_eq_some h
  show 0 < if e.physicalStart = 0 then 4096 else e.physicalStart
  split <;> omega

/-- The range of an aligned descriptor is aligned. -/
theorem seededRange_dvd (h : e.seededRange = some r) (haligned : 4096 ∣ e.physicalStart) :
    4096 ∣ r.lo ∧ 4096 ∣ r.hi := by
  obtain ⟨-, rfl, -⟩ := seededRange_eq_some h
  constructor
  · show 4096 ∣ if e.physicalStart = 0 then 4096 else e.physicalStart
    split
    · exact dvd_rfl
    · exact haligned
  · exact Nat.dvd_add haligned (Nat.dvd_mul_left _ _)

end EfiMemoryDescriptor

namespace MemoryMapHolder

variable {map : MemoryMapHolder} {r : Span}

/-- Every seeded range comes from a descriptor. -/
theorem mem_seededRanges (hr : r ∈ map.seededRanges) :
    ∃ e ∈ map.descriptors, e.seededRange = some r :=
  List.mem_filterMap.1 (List.mem_reverse.1 hr)

/-- The ranges of a usable map do not overlap. -/
theorem Usable.seededRanges_apart (h : map.Usable) :
    map.seededRanges.Pairwise Span.Apart := by
  refine List.pairwise_reverse.2 (List.pairwise_filterMap.2 (h.apart.imp ?_))
  intro e e' hapart r hr r' hr'
  have hr₀ := EfiMemoryDescriptor.seededRange_eq_some hr
  have hr₁ := EfiMemoryDescriptor.seededRange_eq_some hr'
  refine Span.Apart.symm ((hapart hr₀.1 hr₁.1).of_within ?_ ?_)
  · exact EfiMemoryDescriptor.seededRange_within hr
  · exact EfiMemoryDescriptor.seededRange_within hr'

/-- A memory map with three pages of conventional memory at 1 MiB and nothing else. -/
def threePages : MemoryMapHolder where
  memoryMapBuffer :=
    let buffer := Bytes.writeLE (fun _ => 0) 0 8 EfiMemoryType.conventionalMemory.discriminant
    let buffer := Bytes.writeLE buffer 8 8 0x100000
    Bytes.writeLE buffer 24 8 3
  memoryMapSize := 48
  descriptorSize := 48

theorem threePages_usable : threePages.Usable where
  descriptorSize_pos := by decide
  aligned := by decide
  below := by decide
  apart := by decide

theorem threePages_seededRanges : threePages.seededRanges = [⟨0x100000, 0x103000⟩] := by decide

/-- The seeding of a usable memory map. -/
def seeding (map : MemoryMapHolder) (h : map.Usable) : Seeding where
  ranges := map.seededRanges
  apart := h.seededRanges_apart
  lo_pos := by
    intro r hr
    obtain ⟨e, -, he⟩ := mem_seededRanges hr
    exact EfiMemoryDescriptor.seededRange_lo_pos he
  hi_lt := by
    intro r hr
    obtain ⟨e, hmem, he⟩ := mem_seededRanges hr
    have hconv := (EfiMemoryDescriptor.seededRange_eq_some he).1
    exact (EfiMemoryDescriptor.seededRange_within he).2.trans_lt (h.below e hmem hconv)
  lo_dvd := by
    intro r hr
    obtain ⟨e, hmem, he⟩ := mem_seededRanges hr
    have hconv := (EfiMemoryDescriptor.seededRange_eq_some he).1
    have hdvd := (EfiMemoryDescriptor.seededRange_dvd he (h.aligned e hmem hconv)).1
    exact (by decide : 32 ∣ 4096).trans hdvd
  hi_dvd := by
    intro r hr
    obtain ⟨e, hmem, he⟩ := mem_seededRanges hr
    have hconv := (EfiMemoryDescriptor.seededRange_eq_some he).1
    have hdvd := (EfiMemoryDescriptor.seededRange_dvd he (h.aligned e hmem hconv)).2
    exact (by decide : 32 ∣ 4096).trans hdvd

end MemoryMapHolder

namespace Seeding

variable {seed : Seeding}

/-- The pool in which every range is one free block. -/
def pool (seed : Seeding) (hpos : ∀ r ∈ seed.ranges, r.lo < r.hi) : Pool seed where
  blocks := seed.ranges.map Block.ofSpan
  tiles := by
    refine .of_map (fun r hr => ?_) hpos
    have hlt := hpos r hr
    show Span.mk r.lo (r.lo + (r.hi - r.lo)) = r
    rw [Nat.add_sub_cancel' hlt.le]
  granular := by
    intro b hb
    obtain ⟨r, hr, rfl⟩ := List.mem_map.1 hb
    exact ⟨seed.lo_dvd r hr, Nat.dvd_sub (seed.hi_dvd r hr) (seed.lo_dvd r hr)⟩

end Seeding

namespace FirstFitAllocator

variable {e : EfiMemoryDescriptor} {es : List EfiMemoryDescriptor} {r : Span} {rs : List Span}
  {bs : List Block} {s : Heap}

/-- Without an overflow the start and the size are the ones of the usable memory. -/
theorem addFreeFromDescriptor_eq (hfits : e.Fits) :
    addFreeFromDescriptor e s =
      (if e.usableSpan.hi - e.usableSpan.lo ≤ 4096 then pure ()
        else addFree e.usableSpan.lo (e.usableSpan.hi - e.usableSpan.lo)) s := by
  have hspan : (if e.physicalStart = 0 then
        (e.physicalStart + 4096, e.numberOfPages * 4096 - 4096)
      else (e.physicalStart, e.numberOfPages * 4096)) =
      (e.usableSpan.lo, e.usableSpan.hi - e.usableSpan.lo) := by
    show _ = (if e.physicalStart = 0 then 4096 else e.physicalStart,
      e.physicalStart + e.numberOfPages * 4096 -
        if e.physicalStart = 0 then 4096 else e.physicalStart)
    split
    case isTrue hzero => rw [hzero, Nat.zero_add, Nat.zero_add]
    case isFalse => rw [Nat.add_sub_cancel_left]
  rw [addFreeFromDescriptor, Usize.mul_bind hfits.size, hspan]

/-- The usable memory begins in the address space and its size is a word. -/
theorem usableSpan_lt (hfits : e.Fits) :
    e.usableSpan.lo < 2 ^ 64 ∧ e.usableSpan.hi - e.usableSpan.lo < 2 ^ 64 := by
  obtain ⟨hstart, hsize⟩ := hfits
  show (if e.physicalStart = 0 then 4096 else e.physicalStart) < 2 ^ 64 ∧
    e.physicalStart + e.numberOfPages * 4096 -
      (if e.physicalStart = 0 then 4096 else e.physicalStart) < 2 ^ 64
  split <;> omega

/-- A descriptor that contributes no range changes nothing. -/
theorem addFreeFromDescriptor_none (hconv : e.IsConventional) (hfits : e.Fits)
    (h : e.seededRange = none) : addFreeFromDescriptor e s = .ok () s := by
  have hsmall : ¬e.usableSpan.lo + 4096 < e.usableSpan.hi := by
    intro hlt
    rw [EfiMemoryDescriptor.seededRange, if_pos ⟨hconv, hlt⟩] at h
    cases h
  rw [addFreeFromDescriptor_eq hfits, if_pos (by omega)]
  rfl

/-- The header of the new block points to the block that was first. -/
theorem addFree_run (start : ℕ) {size : ℕ} (hsize : size < 2 ^ 64) :
    addFree start size s = .ok ()
      { mem := Header.store s.mem start (Header.ofBlock s.firstHeader size false)
        firstHeader := start } := by
  have hload : ∀ n, n < 2 ^ 64 → ∀ m, Header.load
      (Header.store m start (Header.ofBlock 0 n false)) start = Header.ofBlock 0 n false :=
    fun _ hn m => Header.load_store_ofBlock Header.zero_fits hn false m start
  rw [addFree]
  simp only [Header.newFromAddr_bind, Header.modify_bind, hload 0 Header.zero_fits,
    Header.setNextHeader_ofBlock, Header.setIsAllocated_ofBlock, Header.setSize_ofBlock,
    Header.store_store, Method.run_get_bind, Method.run_modify_bind]
  rw [Header.modify, hload size hsize, Header.store_store, Header.setNextHeader_ofBlock]

/-- A descriptor that contributes a range stores a header at its start. -/
theorem addFreeFromDescriptor_run (h : e.seededRange = some r) (hfits : e.Fits) :
    addFreeFromDescriptor e s = .ok ()
      { mem := Header.store s.mem r.lo (Header.ofBlock s.firstHeader (r.hi - r.lo) false)
        firstHeader := r.lo } := by
  obtain ⟨-, rfl, hlt⟩ := EfiMemoryDescriptor.seededRange_eq_some h
  rw [addFreeFromDescriptor_eq hfits, if_neg (by omega)]
  exact addFree_run _ (usableSpan_lt hfits).2

/-- A descriptor that contributes a range adds a block in front. -/
theorem addFreeFromDescriptor_some (h : e.seededRange = some r) (hfits : e.Fits)
    (hfirst : s.firstHeader < 2 ^ 64) (hs : s.Represents (rs.map Block.ofSpan))
    (hapart : ∀ t ∈ rs, HeadersApart r t) :
    ∃ s', addFreeFromDescriptor e s = .ok () s' ∧ s'.Represents ((r :: rs).map Block.ofSpan) := by
  have hpos := EfiMemoryDescriptor.seededRange_lo_pos h
  have hsize : r.hi - r.lo < 2 ^ 64 := by
    obtain ⟨-, rfl, -⟩ := EfiMemoryDescriptor.seededRange_eq_some h
    exact (usableSpan_lt hfits).2
  refine ⟨_, addFreeFromDescriptor_run h hfits, ?_⟩
  refine .cons (Header.load_store_ofBlock hfirst hsize false _ _) hpos.ne' rfl rfl rfl ?_
  refine hs.congr fun b hb x hlo hhi => (Header.store_of_not_mem ?_).symm
  obtain ⟨t, ht, rfl⟩ := List.mem_map.1 hb
  have hle : min (r.lo + headerSize) (t.lo + headerSize) ≤ max r.lo t.lo := hapart t ht
  have hlo : t.lo ≤ x := hlo
  have hhi : x < t.lo + headerSize := hhi
  unfold headerSize at hhi hle ⊢
  omega

/-- The loop passes over the descriptors of other memory. -/
theorem initLoop_of_conventional (hconv : e.IsConventional) (es : List EfiMemoryDescriptor) :
    initLoop (e :: es) = (addFreeFromDescriptor e >>= fun _ => initLoop es) :=
  if_neg (not_not.2 hconv)

/-- One step of the loop adds the range of its descriptor, if there is one. -/
theorem initLoop_cons (es : List EfiMemoryDescriptor) (hs : s.Represents (rs.map Block.ofSpan))
    (hfits : e.IsConventional → e.Fits) (hlo : ∀ r ∈ rs, r.lo < 2 ^ 64)
    (hapart : (e.seededRange.toList ++ rs).Pairwise HeadersApart) :
    ∃ s', initLoop (e :: es) s = initLoop es s' ∧
      s'.Represents ((e.seededRange.toList ++ rs).map Block.ofSpan) := by
  by_cases hconv : e.IsConventional
  · rw [initLoop_of_conventional hconv]
    cases hseed : e.seededRange with
    | none =>
      exact ⟨s, Method.bind_of_ok (addFreeFromDescriptor_none hconv (hfits hconv) hseed), hs⟩
    | some r =>
      -- the pointer to the old chain is stored in the new header, so it has to fit
      have hfirst : s.firstHeader < 2 ^ 64 := by
        cases rs with
        | nil =>
          have hnull : s.firstHeader = 0 := hs
          omega
        | cons t rs =>
          have ht := hlo t List.mem_cons_self
          have hfirst : s.firstHeader = t.lo := hs.2.1
          omega
      rw [hseed] at hapart
      obtain ⟨s', hs', hrep⟩ := addFreeFromDescriptor_some hseed (hfits hconv) hfirst hs
        (List.pairwise_cons.1 hapart).1
      exact ⟨s', Method.bind_of_ok hs', hrep⟩
  · have hnone : e.seededRange = none := by
      rw [EfiMemoryDescriptor.seededRange, if_neg fun h => hconv h.1]
    refine ⟨s, ?_, hnone ▸ hs⟩
    exact congrFun (if_pos hconv) s

/-- The loop adds the ranges of its descriptors. -/
theorem initLoop_spec (hs : s.Represents (rs.map Block.ofSpan))
    (hfits : ∀ e ∈ es, e.IsConventional → e.Fits) (hlo : ∀ r ∈ rs, r.lo < 2 ^ 64)
    (hapart : ((es.filterMap EfiMemoryDescriptor.seededRange).reverse ++ rs).Pairwise
      HeadersApart) :
    ∃ s', initLoop es s = .ok () s' ∧
      s'.Represents (((es.filterMap EfiMemoryDescriptor.seededRange).reverse ++ rs).map
        Block.ofSpan) := by
  induction es generalizing s rs with
  | nil => exact ⟨s, rfl, hs⟩
  | cons e es ih =>
    -- every range goes to the front, which reverses the order of the descriptors
    have hlist : ((e :: es).filterMap EfiMemoryDescriptor.seededRange).reverse ++ rs =
        (es.filterMap EfiMemoryDescriptor.seededRange).reverse ++
          (e.seededRange.toList ++ rs) := by
      cases hseed : e.seededRange <;> simp [hseed]
    rw [hlist] at hapart ⊢
    have hfits_e := hfits e List.mem_cons_self
    obtain ⟨s', hrun, hrep⟩ := initLoop_cons es hs hfits_e hlo (List.pairwise_append.1 hapart).2.1
    have hlo' : ∀ r ∈ e.seededRange.toList ++ rs, r.lo < 2 ^ 64 := by
      intro r hr
      rcases List.mem_append.1 hr with hr | hr
      · obtain ⟨hconv, rfl, -⟩ :=
          EfiMemoryDescriptor.seededRange_eq_some (Option.mem_toList.1 hr)
        exact (usableSpan_lt (hfits_e hconv)).1
      · exact hlo r hr
    obtain ⟨s'', hs'', hrep'⟩ := ih hrep
      (fun e' he' => hfits e' (List.mem_cons_of_mem e he')) hlo' hapart
    exact ⟨s'', hrun.trans hs'', hrep'⟩

/-- After `init_with_mmap` on an allocator without headers every seeded range is one free
block, if no header was stored over another one. -/
theorem initWithMmap_represents {map : MemoryMapHolder}
    (hfits : ∀ e ∈ map.descriptors, e.IsConventional → e.Fits)
    (hapart : map.seededRanges.Pairwise HeadersApart) (hfirst : s.firstHeader = 0) :
    ∃ s', initWithMmap map s = .ok () s' ∧
      s'.Represents (map.seededRanges.map Block.ofSpan) := by
  have hs : s.Represents (([] : List Span).map Block.ofSpan) := hfirst
  obtain ⟨s', hrun, hrep⟩ := initLoop_spec hs hfits (by simp) (by rwa [List.append_nil])
  rw [List.append_nil] at hrep
  exact ⟨s', hrun, hrep⟩

/-- After `init_with_mmap` on an allocator without headers every seeded range of a usable memory
map is one free block. -/
theorem initWithMmap_spec {map : MemoryMapHolder} (h : map.Usable) (hfirst : s.firstHeader = 0) :
    ∃ s', initWithMmap map s = .ok () s' ∧
      s'.Represents (map.seededRanges.map Block.ofSpan) := by
  -- the headers lie in the ranges, which are disjoint
  have hheader : ∀ r ∈ map.seededRanges, (Block.ofSpan r).header.Within r := by
    intro r hr
    obtain ⟨e, -, he⟩ := MemoryMapHolder.mem_seededRanges hr
    have hlt := (EfiMemoryDescriptor.seededRange_eq_some he).2.2
    refine ⟨le_rfl, ?_⟩
    show r.lo + 32 ≤ r.hi
    omega
  refine initWithMmap_represents (fun e he hconv => ?_)
    (h.seededRanges_apart.imp_of_mem fun {r r'} hr hr' hapart => ?_) hfirst
  · exact EfiMemoryDescriptor.fits_of_hi_lt (h.below e he hconv)
  · exact hapart.of_within (hheader r hr) (hheader r' hr')

end FirstFitAllocator

end Mushix
