import Mushix.Allocator.Seeding

/-!
# The heap of a memory map

What `init_with_mmap` (`allocator.rs`) makes of any buffer that the iterator of
`MemoryMapHolder` (`uefi.rs`) can walk through, be its descriptors disjoint or not.

* `FirstFitAllocator.initWithMmap_seeds_iff`: the headers are those of the seeded ranges exactly
  when no two of these begin at the same address;
* `FirstFitAllocator.not_seeds_sharedPages`: two descriptors of the same pages.
-/

namespace Mushix

open Bytes (Memory)

namespace Chain

variable {m : Memory} {ptr : ℕ} {bs bs' : List Block}

/-- The length of a chain is determined by its beginning. -/
theorem length_eq (h : Chain m ptr bs) (h' : Chain m ptr bs') : bs.length = bs'.length := by
  induction bs generalizing ptr bs' with
  | nil =>
    cases bs' with
    | nil => rfl
    | cons b' bs' => exact absurd h h'.1
  | cons b bs ih =>
    cases bs' with
    | nil => exact absurd h' h.1
    | cons b' bs' =>
      obtain ⟨-, -, -, -, htail⟩ := h
      obtain ⟨-, -, -, -, htail'⟩ := h'
      simp [ih htail htail']

/-- A chain visits no address twice. -/
theorem addr_nodup (h : Chain m ptr bs) : (bs.map Block.addr).Nodup := by
  induction bs generalizing ptr with
  | nil => simp
  | cons b bs ih =>
    obtain ⟨-, haddr, -, -, htail⟩ := id h
    refine List.nodup_cons.2 ⟨fun hmem => ?_, ih htail⟩
    -- a second visit would begin a shorter chain at the same address
    obtain ⟨c, hc, heq⟩ := List.mem_map.1 hmem
    obtain ⟨pre, post, rfl⟩ := List.append_of_mem hc
    obtain ⟨q, hq⟩ := htail.of_append
    obtain rfl : q = ptr := by rw [haddr, ← heq, hq.2.1]
    have hlength := h.length_eq hq
    simp at hlength
    omega

end Chain

namespace FirstFitAllocator

variable {es : List EfiMemoryDescriptor} {s : Heap}

/-- The loop does not panic. -/
theorem initLoop_ok (hfits : ∀ e ∈ es, e.IsConventional → e.Fits) :
    ∃ s', initLoop es s = .ok () s' := by
  induction es generalizing s with
  | nil => exact ⟨s, rfl⟩
  | cons e es ih =>
    have hrest := fun s => ih (s := s) fun e' he' => hfits e' (List.mem_cons_of_mem e he')
    by_cases hconv : e.IsConventional
    · have hfits_e := hfits e List.mem_cons_self hconv
      rw [initLoop_of_conventional hconv]
      cases hseed : e.seededRange with
      | none =>
        rw [Method.bind_of_ok (addFreeFromDescriptor_none hconv hfits_e hseed)]
        exact hrest s
      | some r =>
        rw [Method.bind_of_ok (addFreeFromDescriptor_run hseed hfits_e)]
        exact hrest _
    · rw [show initLoop (e :: es) = initLoop es from if_pos hconv]
      exact hrest s

/-- For every memory map that can be walked through: the descriptors are visited one behind the
other and all of them lie in the buffer. The headers are then, in the opposite order, those of the
usable memory of the descriptors with more than a page of it, as long as this memory begins at
different addresses. The page at address 0 is in none of them. -/
theorem initWithMmap_seeds_iff (map : MemoryMapHolder) (mem : Memory)
    (hstride : EfiMemoryDescriptor.byteSize ≤ map.descriptorSize)
    (hbuffer : map.memoryMapSize ≤ memoryMapBufferSize)
    (hdvd : map.descriptorSize ∣ map.memoryMapSize)
    (haligned : ∀ e ∈ map.descriptors, 4096 ∣ e.physicalStart)
    (hsize : ∀ e ∈ map.descriptors, e.numberOfPages * 4096 < 2 ^ 64) :
    (map.descriptors = (List.range (map.memoryMapSize / map.descriptorSize)).map fun i =>
      EfiMemoryDescriptor.load map.memoryMapBuffer (i * map.descriptorSize)) ∧
    (∀ i < map.memoryMapSize / map.descriptorSize,
      i * map.descriptorSize + EfiMemoryDescriptor.byteSize ≤ memoryMapBufferSize) ∧
    ∃ heap, initWithMmap map { mem, firstHeader := 0 } = .ok () heap ∧
      (heap.Represents (map.seededRanges.map Block.ofSpan) ↔
        (map.seededRanges.map Span.lo).Nodup) ∧
      ∀ b ∈ map.seededRanges.map Block.ofSpan, ∀ x ∈ b.span, 4096 ≤ x := by
  have hpos : 0 < map.descriptorSize := (by decide : 0 < EfiMemoryDescriptor.byteSize).trans_le
    hstride
  have hfits : ∀ e ∈ map.descriptors, e.IsConventional → e.Fits := fun e he _ =>
    ⟨MemoryMapHolder.physicalStart_lt hpos hdvd he, hsize e he⟩
  have hgrid : ∀ r ∈ map.seededRanges, 4096 ∣ r.lo ∧ 0 < r.lo := by
    intro r hr
    obtain ⟨e, he, hseed⟩ := MemoryMapHolder.mem_seededRanges hr
    exact ⟨(EfiMemoryDescriptor.seededRange_dvd hseed (haligned e he)).1,
      EfiMemoryDescriptor.seededRange_lo_pos hseed⟩
  obtain ⟨heap, hrun⟩ := initLoop_ok (s := { mem, firstHeader := 0 }) hfits
  refine ⟨MemoryMapHolder.descriptors_eq hpos hdvd, ?_, heap, hrun, ⟨?_, ?_⟩, ?_⟩
  · intro i hi
    have hle := Nat.mul_le_mul_right map.descriptorSize hi
    rw [Nat.div_mul_cancel hdvd, Nat.succ_mul] at hle
    omega
  · intro hrep
    have hnodup := hrep.addr_nodup
    rwa [List.map_map] at hnodup
  -- headers at different addresses of the grid do not overlap
  · intro hnodup
    have hapart : map.seededRanges.Pairwise HeadersApart := by
      refine (List.pairwise_map.1 hnodup).imp_of_mem fun {r r'} hr hr' hne => ?_
      have hr := (hgrid r hr).1
      have hr' := (hgrid r' hr').1
      show min (r.lo + 32) (r'.lo + 32) ≤ max r.lo r'.lo
      omega
    obtain ⟨heap', hrun', hrep⟩ :=
      initWithMmap_represents (s := { mem, firstHeader := 0 }) hfits hapart rfl
    cases hrun.symm.trans hrun'
    exact hrep
  · intro b hb x hx
    obtain ⟨r, hr, rfl⟩ := List.mem_map.1 hb
    obtain ⟨hdvd, hpos⟩ := hgrid r hr
    exact (Nat.le_of_dvd hpos hdvd).trans hx.1

/-- One descriptor with three pages of conventional memory. -/
theorem initWithMmap_seeds_iff_threePages :
    (MemoryMapHolder.threePages.descriptors =
      (List.range (MemoryMapHolder.threePages.memoryMapSize /
        MemoryMapHolder.threePages.descriptorSize)).map fun i =>
          EfiMemoryDescriptor.load MemoryMapHolder.threePages.memoryMapBuffer
            (i * MemoryMapHolder.threePages.descriptorSize)) ∧
    (∀ i < MemoryMapHolder.threePages.memoryMapSize / MemoryMapHolder.threePages.descriptorSize,
      i * MemoryMapHolder.threePages.descriptorSize + EfiMemoryDescriptor.byteSize ≤
        memoryMapBufferSize) ∧
    ∃ heap, initWithMmap MemoryMapHolder.threePages { mem := fun _ => 0, firstHeader := 0 } =
        .ok () heap ∧
      (heap.Represents (MemoryMapHolder.threePages.seededRanges.map Block.ofSpan) ↔
        (MemoryMapHolder.threePages.seededRanges.map Span.lo).Nodup) ∧
      ∀ b ∈ MemoryMapHolder.threePages.seededRanges.map Block.ofSpan, ∀ x ∈ b.span, 4096 ≤ x :=
  initWithMmap_seeds_iff MemoryMapHolder.threePages _ (by decide) (by decide) (by decide)
    (by decide) (by decide)

end FirstFitAllocator

/-- A memory map with two descriptors of the same three pages. -/
def MemoryMapHolder.sharedPages : MemoryMapHolder where
  memoryMapBuffer :=
    let descriptor (buffer : Memory) (ofs : ℕ) : Memory :=
      let buffer := Bytes.writeLE buffer ofs 8 EfiMemoryType.conventionalMemory.discriminant
      let buffer := Bytes.writeLE buffer (ofs + 8) 8 0x100000
      Bytes.writeLE buffer (ofs + 24) 8 3
    descriptor (descriptor (fun _ => 0) 0) 40
  memoryMapSize := 80
  descriptorSize := 40

namespace FirstFitAllocator

/-- The header of the pages is stored twice and points to itself, so that the chain of headers
does not end. -/
theorem not_seeds_sharedPages :
    EfiMemoryDescriptor.byteSize ≤ MemoryMapHolder.sharedPages.descriptorSize ∧
    MemoryMapHolder.sharedPages.memoryMapSize ≤ memoryMapBufferSize ∧
    MemoryMapHolder.sharedPages.descriptorSize ∣ MemoryMapHolder.sharedPages.memoryMapSize ∧
    (∀ e ∈ MemoryMapHolder.sharedPages.descriptors,
      4096 ∣ e.physicalStart ∧ e.numberOfPages * 4096 < 2 ^ 64) ∧
    ∃ heap, initWithMmap MemoryMapHolder.sharedPages { mem := fun _ => 0, firstHeader := 0 } =
        .ok () heap ∧
      ∀ bs, ¬heap.Represents bs := by
  refine ⟨by decide, by decide, by decide, by decide, ?_⟩
  let pages : EfiMemoryDescriptor := ⟨7, 0x100000, 3⟩
  have hpages : MemoryMapHolder.sharedPages.descriptors = [pages, pages] := by decide
  have hconv : pages.IsConventional := by decide
  have hseed : pages.seededRange = some ⟨0x100000, 0x103000⟩ := by decide
  have hfits : pages.Fits := ⟨by decide, by decide⟩
  -- the second header is stored over the first one, to which it points
  let once : Heap :=
    { mem := Header.store (fun _ => 0) 0x100000 (Header.ofBlock 0 0x3000 false)
      firstHeader := 0x100000 }
  let twice : Heap :=
    { mem := Header.store once.mem 0x100000 (Header.ofBlock once.firstHeader 0x3000 false)
      firstHeader := 0x100000 }
  refine ⟨twice, ?_, ?_⟩
  · rw [initWithMmap, hpages, initLoop_of_conventional hconv,
      Method.bind_of_ok (addFreeFromDescriptor_run hseed hfits), initLoop_of_conventional hconv,
      Method.bind_of_ok (addFreeFromDescriptor_run hseed hfits)]
    rfl
  · intro bs hrep
    cases bs with
    | nil =>
      have hnull : 0x100000 = 0 := hrep
      cases hnull
    | cons b bs =>
      -- the chain would be as long as its own tail
      obtain ⟨-, -, -, -, htail⟩ := id hrep
      rw [Header.load_store_ofBlock (by decide) (by decide)] at htail
      have hlength := Chain.length_eq hrep htail
      simp at hlength

end FirstFitAllocator

end Mushix
