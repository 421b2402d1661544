import Mushix.Allocator.Contents
import Mushix.Paging.InitPaging
import Mushix.Paging.PresentTables

/-!
# Page tables next to the heap

The page tables in the bytes of memory, where their pages come from the global allocator. CR3 may
point to tables of the firmware; the program does not allocate them.

* `GlobalAllocator`: `Box::new` of a table is a call of the allocator;
* `HeapTables`: all memory of the heap has page tables, which lie outside of it;
* `run_disableCache_heap`: `disable_cache` for a page of the heap stores one entry;
* `Uncached`: the pages of the heap for which it was called, over any number of calls.
-/

namespace Mushix

open Bytes (Memory readLE writeLE)
open HeapSystem (Fills)
open Radix (digit)

/-- The words in memory. -/
def words (m : Memory) (a : ℕ) : BitVec 64 := BitVec.ofNat 64 (readLE m a 8)

namespace HeapSystem

instance : WordMemory HeapSystem where
  word s := words s.heap.mem
  store a value := modify fun s => s.setMem (writeLE s.heap.mem a 8 value.toNat)

end HeapSystem

/-- The allocator behind `Box::new`. -/
inductive GlobalAllocator where
  | allocator

/-- `Box::new` of a table of zeros. -/
def GlobalAllocator.newTable : Method HeapSystem ℕ := boxNew .page4K (List.replicate pageSize 0)

instance : TableSource GlobalAllocator HeapSystem where
  newZeroed _ := GlobalAllocator.newTable

/-- The page has bytes of the heap. -/
def HeapPage (ranges : List Span) (n : ℕ) : Prop := ∃ r ∈ ranges, ∃ x ∈ r, x / 4096 = n

/-- All memory of the heap is in the lower half of the address space and has page tables, which
are outside of the heap with all tables on the way to them. -/
structure HeapTables (ranges : List Span) (cr3 : ℕ) (m : Memory) : Prop where
  below : ∀ r ∈ ranges, r.hi ≤ 2 ^ 47
  tables : HasPageTables (HeapPage ranges) cr3 (words m)
  outside : ∀ n, HeapPage ranges n → ∀ h t, Leads (words m) cr3 n h t → ∀ r ∈ ranges,
    (⟨t, t + 4096⟩ : Span).Apart r

/-- The entry with which `disable_cache` maps a page to itself. -/
def uncachedEntry (n : ℕ) : BitVec 64 := BitVec.ofNat 64 (4096 * n) ||| PageAttr.readWriteIo.toU64

/-- Where `disable_cache` was called for these pages of the heap. -/
structure Uncached (ranges : List Span) (cr3 : ℕ) (ns : List ℕ) (m : Memory) : Prop where
  tables : HeapTables ranges cr3 m
  entries : ∀ n ∈ ns, HeapPage ranges n ∧ HasEntry (words m) cr3 n (uncachedEntry n)

/-- All addresses of the page are translated to themselves, in the end without the cache. -/
def MappedWithoutCache (m : Memory) (cr3 n : ℕ) : Prop :=
  ∃ flags, ∀ va, va / 4096 = n →
    translate (words m) cr3 va =
      some { phys := va, flags := flags ++ [PageAttr.readWriteIo.toU64] }

variable {ranges : List Span} {cr3 n h t : ℕ} {m m' : Memory} {ns : List ℕ}

/-- A word depends on its bytes. -/
theorem words_congr {a : ℕ} (hsame : ∀ x, a ≤ x → x < a + 8 → m' x = m x) :
    words m' a = words m a := by
  rw [words, words, Bytes.readLE_congr hsame]

/-- An entry is in its table. -/
theorem mem_table {x i : ℕ} (hi : i < 512) (hlo : t + 8 * i ≤ x) (hhi : x < t + 8 * i + 8) :
    x ∈ (⟨t, t + 4096⟩ : Span) :=
  ⟨(Nat.le_add_right t (8 * i)).trans hlo, hhi.trans_le (by show _ ≤ t + 4096; omega)⟩

section Store

variable (m) (a : ℕ) (e : BitVec 64)

/-- The word that was stored. -/
theorem words_writeLE_self : words (writeLE m a 8 e.toNat) a = e := by
  rw [words, Bytes.readLE_writeLE m a 8 e.isLt, BitVec.ofNat_toNat, BitVec.setWidth_eq]

/-- The other aligned words. -/
theorem words_writeLE_of_ne (ha : a % 8 = 0) {b : ℕ} (hb : b % 8 = 0) (hne : b ≠ a) :
    words (writeLE m a 8 e.toNat) b = words m b := by
  rw [words, words, Bytes.readLE_writeLE_of_disjoint (by omega)]

end Store

namespace HeapTables

/-- A page of the heap is in the lower half. -/
theorem page_below (htables : HeapTables ranges cr3 m) (hn : HeapPage ranges n) :
    4096 * n + 4096 ≤ 2 ^ 47 := by
  obtain ⟨r, hr, x, hx, rfl⟩ := hn
  have hhi := htables.below r hr
  have hlt : x < r.hi := hx.2
  omega

/-- The entries of a table on the way are outside of the heap. -/
theorem words_eq (htables : HeapTables ranges cr3 m)
    (hsame : ∀ x, (∀ r ∈ ranges, x ∉ r) → m' x = m x) (hn : HeapPage ranges n)
    (hleads : Leads (words m) cr3 n h t) {i : ℕ} (hi : i < 512) :
    words m' (t + 8 * i) = words m (t + 8 * i) := by
  refine words_congr fun x hlo hhi => hsame x fun r hr => ?_
  exact Span.apart_iff.1 (htables.outside n hn h t hleads r hr) x (mem_table hi hlo hhi)

/-- What is stored in the heap does not concern the tables. -/
theorem congr (htables : HeapTables ranges cr3 m)
    (hsame : ∀ x, (∀ r ∈ ranges, x ∉ r) → m' x = m x) : HeapTables ranges cr3 m' where
  below := htables.below
  tables := htables.tables.congr fun _ hn _ _ hleads =>
    htables.words_eq hsame hn hleads (Radix.digit_lt (by decide) _ _)
  outside n hn h t hleads := by
    refine htables.outside n hn h t ((leads_congr fun _ _ hleads => ?_).1 hleads)
    exact htables.words_eq hsame hn hleads (Radix.digit_lt (by decide) _ _)

section Store

variable (htables : HeapTables ranges cr3 m) (hn : HeapPage ranges n)
  (hleads : Leads (words m) cr3 n 0 t) (e : BitVec 64)

include htables hleads

/-- The store of the entry of a page changes no other aligned word. -/
theorem words_store {b : ℕ} (hb : b % 8 = 0) (hne : b ≠ t + 8 * digit 512 0 n) :
    words (writeLE m (t + 8 * digit 512 0 n) 8 e.toNat) b = words m b := by
  have haligned := hleads.aligned htables.tables.root_aligned
  exact words_writeLE_of_ne m _ e (by omega) hb hne

include hn

/-- The store of the entry of a page keeps the page tables. -/
theorem store : HeapTables ranges cr3 (writeLE m (t + 8 * digit 512 0 n) 8 e.toNat) where
  below := htables.below
  tables := htables.tables.store hn hleads fun _ => htables.words_store hleads e
  outside m' hm' h' t' hleads' :=
    htables.outside m' hm' h' t' ((htables.tables.leads_iff hn hleads
      (fun _ => htables.words_store hleads e) hm').1 hleads')

/-- It stores nothing in the heap. -/
theorem store_heap {r : Span} (hr : r ∈ ranges) {x : ℕ} (hx : x ∈ r) (m₁ : Memory) :
    writeLE m₁ (t + 8 * digit 512 0 n) 8 e.toNat x = m₁ x := by
  apply Bytes.writeLE_of_not_mem
  by_contra hin
  have hpage : x ∈ (⟨t, t + 4096⟩ : Span) :=
    mem_table (Radix.digit_lt (by decide : 0 < 512) 0 n) (by omega) (by omega)
  exact Span.apart_iff.1 (htables.outside n hn 0 t hleads r hr) x hpage hx

end Store

end HeapTables

namespace Uncached

/-- One page more. -/
theorem store (h : Uncached ranges cr3 ns m) (hn : HeapPage ranges n)
    (hleads : Leads (words m) cr3 n 0 t) :
    Uncached ranges cr3 (n :: ns)
      (writeLE m (t + 8 * digit 512 0 n) 8 (uncachedEntry n).toNat) := by
  have hstore := fun b => h.tables.words_store hleads (uncachedEntry n) (b := b)
  have hself := words_writeLE_self m (t + 8 * digit 512 0 n) (uncachedEntry n)
  have hentry := h.tables.tables.hasEntry_self hn hleads hstore hself
  refine ⟨h.tables.store hn hleads _, List.forall_mem_cons.2 ⟨⟨hn, hentry⟩, fun k hk => ?_⟩⟩
  obtain ⟨hpage, hold⟩ := h.entries k hk
  refine ⟨hpage, ?_⟩
  by_cases hne : k = n
  · rw [hne]
    exact hentry
  · exact h.tables.tables.hasEntry_of_ne hn hleads hstore hpage hne hold

/-- What is stored in the heap does not concern them. -/
theorem congr (h : Uncached ranges cr3 ns m)
    (hsame : ∀ x, (∀ r ∈ ranges, x ∉ r) → m' x = m x) : Uncached ranges cr3 ns m' := by
  refine ⟨h.tables.congr hsame, fun n hn => ?_⟩
  obtain ⟨hpage, t, hleads, hentry⟩ := h.entries n hn
  have hwords : ∀ {h' t}, Leads (words m) cr3 n h' t →
      words m' (t + 8 * digit 512 h' n) = words m (t + 8 * digit 512 h' n) := fun hleads =>
    h.tables.words_eq hsame hpage hleads (Radix.digit_lt (by decide) _ _)
  exact ⟨hpage, t, (leads_congr fun _ _ => hwords).2 hleads, (hwords hleads).trans hentry⟩

/-- These pages are mapped to themselves without the cache. -/
theorem mapped (h : Uncached ranges cr3 ns m) (hn : n ∈ ns) : MappedWithoutCache m cr3 n := by
  obtain ⟨hpage, hentry⟩ := h.entries n hn
  have hbelow := h.tables.page_below hpage
  exact hentry.translate_eq (by decide) (hbelow.trans (by decide))

end Uncached

/-- For a page of the heap `disable_cache` stores one entry. -/
theorem run_disableCache_heap {s : HeapSystem} (htables : HeapTables ranges cr3 s.heap.mem)
    (hn : HeapPage ranges n) (hleads : Leads (words s.heap.mem) cr3 n 0 t) :
    disableCache GlobalAllocator.allocator ⟨4096 * n, 4096⟩ (s, cr3) =
      .ok ⟨⟩ (s.setMem (writeLE s.heap.mem (t + 8 * digit 512 0 n) 8 (uncachedEntry n).toNat),
        cr3) := by
  have hbelow := htables.page_below hn
  have hcall : PML4.createMapping GlobalAllocator.allocator (4096 * n) (4096 * n + 4096) (4096 * n)
      .readWriteIo cr3 s =
        .ok () (s.setMem (writeLE s.heap.mem (t + 8 * digit 512 0 n) 8 (uncachedEntry n).toNat)) :=
    PML4.createMapping_of_leads GlobalAllocator.allocator (by omega) le_rfl
      (Nat.mul_mod_right 4096 n) (by omega) hleads rfl
  have hread : readCr3 (s, cr3) = .ok cr3 (s, cr3) := rfl
  rw [disableCache, Usize.add_bind (hbelow.trans_lt (by decide)), Method.bind_of_ok hread,
    Method.bind_of_ok (Method.onFst_of_ok (Method.expect_of_ok _ hcall) cr3)]
  rfl

/-- `disable_cache` for a page of the heap, which changes nothing that was stored in the heap. -/
theorem HeapSystem.Fills.disableCache {seed : Seeding} {cs : List (Allocation × List (BitVec 8))}
    {s : HeapSystem} (h : Fills seed (Uncached seed.ranges cr3 ns) cs s)
    (hn : HeapPage seed.ranges n) :
    ∃ s', Mushix.disableCache GlobalAllocator.allocator ⟨4096 * n, 4096⟩ (s, cr3) =
        .ok ⟨⟩ (s', cr3) ∧
      Fills seed (Uncached seed.ranges cr3 (n :: ns)) cs s' := by
  obtain ⟨out, huncached, hout⟩ := h.outside
  obtain ⟨t, hleads⟩ := huncached.tables.tables.leads n hn
  have htables := huncached.tables.congr hout
  have hleads' : Leads (words s.heap.mem) cr3 n 0 t := by
    refine (leads_congr fun _ _ hleads => ?_).2 hleads
    exact huncached.tables.words_eq hout hn hleads (Radix.digit_lt (by decide) _ _)
  refine ⟨_, run_disableCache_heap htables hn hleads', h.setMem_of_heap (fun r hr x hx => ?_)
    ⟨_, huncached.store hn hleads, fun x hx => ?_⟩⟩
  · exact htables.store_heap hn hleads' (uncachedEntry n) hr hx s.heap.mem
  · rw [writeLE, writeLE, hout x hx]

/-- The pages for which it was called, in memory as it is. -/
theorem HeapSystem.Fills.uncached {seed : Seeding} {cs : List (Allocation × List (BitVec 8))}
    {s : HeapSystem} (h : Fills seed (Uncached seed.ranges cr3 ns) cs s) :
    Uncached seed.ranges cr3 ns s.heap.mem := by
  obtain ⟨out, huncached, hout⟩ := h.outside
  exact huncached.congr hout

end Mushix
