import Mushix.Allocator.Boxes
import Mushix.Ends

/-!
# What is stored in allocations

A client of the allocator that knows what it has stored: a list of its allocations, each with the
bytes at its beginning, and a property of what lies outside of the heap.

* `HeapSystem.Contains`: the allocations are live and disjoint, and the bytes lie in them;
* `HeapSystem.Fills`: the same, for a client of a heap in which the calls of the allocator are
  known; its rules say what a new box and a store add;
* `HeapSystem.withOutside`: any memory around the heap.
-/

namespace Mushix

open Bytes (Memory)
open Method (Ends)
open Packed (Stores)

namespace HeapSystem

/-- `ptr::copy` of these bytes to an address, or a store of a value with these bytes. -/
def storeBytes (ptr : ℕ) (bytes : List (BitVec 8)) : Method HeapSystem PUnit :=
  modify fun s => s.setMem (Packed.store s.heap.mem ptr bytes)

/-- The allocations are live and disjoint, and begin with the bytes. -/
structure Contains (cs : List (Allocation × List (BitVec 8))) (s : HeapSystem) : Prop where
  live : ∀ c ∈ cs, c.1 ∈ s.live
  apart : (cs.map Prod.fst).Pairwise fun a a' => a.bytes.Apart a'.bytes
  stores : ∀ c ∈ cs, Stores s.heap.mem c.1.ptr c.2

/-- A client owns the allocations, and has stored the bytes in them. Outside of the heap memory is
like one with the property `P`. -/
structure Fills (seed : Seeding) (P : Memory → Prop) (cs : List (Allocation × List (BitVec 8)))
    (s : HeapSystem) : Prop where
  owns : ∃ bs, Owns seed bs (cs.map Prod.fst) s
  stores : ∀ c ∈ cs, c.2.length ≤ c.1.layout.size ∧ Stores s.heap.mem c.1.ptr c.2
  outside : ∃ out, P out ∧ ∀ x, (∀ r ∈ seed.ranges, x ∉ r) → s.heap.mem x = out x

/-- The heap in other memory: outside of these ranges it is as in `out`. -/
def withOutside (ranges : List Span) (out : Memory) (s : HeapSystem) : HeapSystem :=
  s.setMem fun x => if ∃ r ∈ ranges, x ∈ r then s.heap.mem x else out x

variable {seed : Seeding} {P P' : Memory → Prop} {bs : List Block} {as : List Allocation}
  {cs cs' : List (Allocation × List (BitVec 8))} {a : Allocation}
  {bytes bytes' new : List (BitVec 8)} {s s' : HeapSystem}

/-- Stores outside of the heap do not concern its clients. -/
theorem Owns.setMem_of_heap (h : Owns seed bs as s) {mem : Memory}
    (hmem : ∀ r ∈ seed.ranges, ∀ x ∈ r, mem x = s.heap.mem x) :
    Owns seed bs as (s.setMem mem) := by
  obtain ⟨pool, rfl, hsound⟩ := h.sound
  refine ⟨⟨pool, rfl, hsound.panicked, ?_, hsound.live, hsound.distinct, hsound.returned⟩, h.live,
    h.distinct⟩
  -- the headers are in the ranges of the heap
  refine hsound.represents.congr fun b hb x hlo hhi => ?_
  obtain ⟨-, r, hr, hin⟩ := pool.tiles.mem hb
  exact (hmem r hr x (((pool.header_within hb).trans hin).mem ⟨hlo, hhi⟩)).symm

namespace Fills

/-- Before the first allocation. -/
theorem withOutside (h : Owns seed bs [] s) {out : Memory} (hout : P out) :
    Fills seed P [] (s.withOutside seed.ranges out) where
  owns := ⟨bs, h.setMem_of_heap fun r hr _ hx => if_pos ⟨r, hr, hx⟩⟩
  stores := fun _ hc => nomatch hc
  outside := ⟨out, hout, fun _ hx => if_neg fun ⟨r, hr, hmem⟩ => hx r hr hmem⟩

theorem contains (h : Fills seed P cs s) : Contains cs s := by
  obtain ⟨bs, howns⟩ := h.owns
  exact ⟨fun c hc => howns.live c.1 (List.mem_map_of_mem hc), howns.pairwise_apart,
    fun c hc => (h.stores c hc).2⟩

/-- The order of the list does not matter, and a client may forget a part of it. -/
theorem subperm (h : Fills seed P cs s) (hsub : cs'.Subperm cs) : Fills seed P cs' s := by
  obtain ⟨bs, howns⟩ := h.owns
  obtain ⟨l, hperm, hsublist⟩ := hsub
  refine ⟨⟨bs, ?_⟩, fun c hc => h.stores c (hsublist.subset (hperm.mem_iff.2 hc)), h.outside⟩
  exact (howns.sublist (hsublist.map Prod.fst)).perm (hperm.map Prod.fst)

/-- What is stored stays there as long as the bytes of the allocations do. -/
theorem stores_same (h : Fills seed P cs s) (hsame : Same seed (cs.map Prod.fst) s s') :
    ∀ c ∈ cs, c.2.length ≤ c.1.layout.size ∧ Stores s'.heap.mem c.1.ptr c.2 := by
  intro c hc
  obtain ⟨hle, hstores⟩ := h.stores c hc
  exact ⟨hle, hsame.stores (List.mem_map_of_mem hc) hle hstores⟩

/-- Outside of the heap nothing changes either. -/
theorem outside_same (h : Fills seed P cs s) {as : List Allocation} (hsame : Same seed as s s') :
    ∃ out, P out ∧ ∀ x, (∀ r ∈ seed.ranges, x ∉ r) → s'.heap.mem x = out x := by
  obtain ⟨out, hP, hout⟩ := h.outside
  exact ⟨out, hP, fun x hx => (hsame.outside x hx).trans (hout x hx)⟩

/-- A box is one more allocation. -/
theorem boxNew (h : Fills seed P cs s) (layout : Layout) (hpos : 0 < layout.size)
    (hlen : bytes.length ≤ layout.size) :
    Ends (fun _ => True)
      (fun p s' => p < 2 ^ 64 ∧ p % layout.align = 0 ∧
        Fills seed P ((⟨p, layout⟩, bytes) :: cs) s')
      (boxNew layout bytes) s := by
  obtain ⟨bs, howns⟩ := h.owns
  refine (Ends.of_follows (boxNew_follows howns layout hpos hlen)).imp (fun _ h => h) ?_
  rintro p s' ⟨r, -, halign, hstores, howns', hsame⟩
  refine ⟨howns'.ptr_lt List.mem_cons_self, halign, ⟨⟨r.2, howns'⟩, ?_, h.outside_same hsame⟩⟩
  exact List.forall_mem_cons.2 ⟨⟨hlen, hstores⟩, h.stores_same hsame⟩

/-- A store to an allocation changes what it contains, and nothing else. -/
theorem storeBytes (h : Fills seed P ((a, bytes) :: cs) s) {ptr : ℕ}
    (hin : (⟨ptr, ptr + new.length⟩ : Span).Within a.bytes) (hlen : bytes'.length ≤ a.layout.size)
    (hnew : Stores (Packed.store s.heap.mem ptr new) a.ptr bytes') :
    Fills seed P ((a, bytes') :: cs) (s.setMem (Packed.store s.heap.mem ptr new)) := by
  obtain ⟨bs, howns⟩ := h.owns
  have hout : ∀ x, x ∉ a.bytes → Packed.store s.heap.mem ptr new x = s.heap.mem x := by
    intro x hx
    apply Packed.store_of_not_mem
    by_contra hmem
    refine hx (hin.mem ⟨?_, ?_⟩)
    · show ptr ≤ x
      omega
    · show x < ptr + new.length
      omega
  obtain ⟨howns', hsame⟩ := howns.write hout
  have hrest : Fills seed P cs s := h.subperm (List.sublist_cons_self _ cs).subperm
  refine ⟨⟨bs, howns'⟩, List.forall_mem_cons.2 ⟨⟨hlen, hnew⟩, ?_⟩, h.outside_same hsame⟩
  exact hrest.stores_same hsame

/-- A store of new bytes for a part of the old ones. -/
theorem replace {front old back : List (BitVec 8)}
    (h : Fills seed P ((a, front ++ (old ++ back)) :: cs) s) (hnew : new.length = old.length) :
    Fills seed P ((a, front ++ (new ++ back)) :: cs)
      (s.setMem (Packed.store s.heap.mem (a.ptr + front.length) new)) := by
  obtain ⟨hle, hstores⟩ := h.stores _ List.mem_cons_self
  simp only [List.length_append] at hle
  refine h.storeBytes ⟨Nat.le_add_right _ _, ?_⟩ ?_ (hstores.replace hnew)
  · show a.ptr + front.length + new.length ≤ a.ptr + a.layout.size
    omega
  · simp only [List.length_append]
    omega

/-- The bytes of an allocation are bytes of the heap. -/
theorem within (h : Fills seed P cs s) {c : Allocation × List (BitVec 8)} (hc : c ∈ cs) :
    ∃ r ∈ seed.ranges, c.1.bytes.Within r := by
  obtain ⟨bs, howns⟩ := h.owns
  obtain ⟨pool, rfl, hsound⟩ := howns.sound
  obtain ⟨b, hb, -, -, hin⟩ := howns.block (List.mem_map_of_mem hc)
  obtain ⟨-, r, hr, hrange⟩ := pool.tiles.mem hb
  have hpayload : b.payload.Within b.span := ⟨Nat.le_add_right _ _, le_rfl⟩
  exact ⟨r, hr, (hin.trans hpayload).trans hrange⟩

/-- A store outside of the heap. -/
theorem setMem_of_heap (h : Fills seed P cs s) {mem : Memory}
    (hheap : ∀ r ∈ seed.ranges, ∀ x ∈ r, mem x = s.heap.mem x)
    (hout : ∃ out, P' out ∧ ∀ x, (∀ r ∈ seed.ranges, x ∉ r) → mem x = out x) :
    Fills seed P' cs (s.setMem mem) := by
  obtain ⟨bs, howns⟩ := h.owns
  refine ⟨⟨bs, howns.setMem_of_heap hheap⟩, fun c hc => ?_, hout⟩
  obtain ⟨hle, hstores⟩ := h.stores c hc
  obtain ⟨r, hr, hin⟩ := h.within hc
  refine ⟨hle, hstores.congr fun x hlo hhi => ?_⟩
  exact (hheap r hr x (hin.mem ⟨hlo, hhi.trans_le (Nat.add_le_add_left hle _)⟩)).symm

end Fills

end HeapSystem

end Mushix
