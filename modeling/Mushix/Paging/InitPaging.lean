import Mushix.Allocator.Seeding
import Mushix.Ends
import Mushix.Paging.LastMapping
import Mushix.Usize

/-!
# The identity map

The page tables that `init_pading` (`init.rs`) builds out of the memory map, and what the calls of
`disable_cache` (`x86.rs`) and `disable_cach` (`pci.rs`) make of them afterwards.

* `initPading`: the new tables, which are loaded into CR3;
* `disableCaches`: regions for devices, one after the other, in the current tables;
* `initPading_identity`: the translation of every address after any such calls.
-/

namespace Mushix

open PML4 (new createMapping OwnTree)

/-- Memory that `init_pading` looks at. -/
def EfiMemoryDescriptor.IsRam (e : EfiMemoryDescriptor) : Prop :=
  e.memoryType ∈ [EfiMemoryType.conventionalMemory, .loaderCode, .loaderData].map
    EfiMemoryType.discriminant

instance : DecidablePred EfiMemoryDescriptor.IsRam := fun _ =>
  inferInstanceAs (Decidable (_ ∈ _))

/-- `expect` panics on every error. -/
def Method.expect {σ α : Type} (msg : String) (x : Method σ α) : Method σ α := do
  match ← x.attempt with
  | .ok a => return a
  | .error _ => throw (.panic msg)

section InitPading

variable {σ ρ : Type} [WordMemory σ] [TableSource ρ σ]

/-- The processor uses other tables from now on. The register is behind the memory. -/
def writeCr3 (root : ℕ) : Method (σ × ℕ) PUnit := modify fun s => (s.1, root)

/-- The address of the tables that the processor uses. -/
def readCr3 : Method (σ × ℕ) ℕ := do return (← get).2

/-- The end of memory after the remaining descriptors. -/
def endOfMem : List EfiMemoryDescriptor → ℕ → Method σ ℕ
  | [], last => return last
  | e :: es, last =>
    if e.IsRam then do
      let size ← Usize.mul e.numberOfPages pageSize
      let hi ← Usize.add e.physicalStart size
      endOfMem es (max last hi)
    else
      endOfMem es last

/-- `init_pading` maps all memory to itself, takes the page at address 0 out again and loads the new
tables. -/
def initPading (box : ρ) (map : MemoryMapHolder) : Method (σ × ℕ) PUnit := do
  let table ← Method.onFst (new box)
  let last ← endOfMem map.descriptors 0x100000000
  Method.onFst (createMapping box 0 last 0 .readWriteKernel table
    |>.expect "failed to create initial page mapping")
  Method.onFst (createMapping box 0 4096 0 .notPresent table |>.expect "Failed to unmap page 0")
  writeCr3 table

/-- The memory of a device, or that it shares with one: an `IoBox` or a BAR, with any address and
size. -/
structure IoRegion where
  start : ℕ
  size : ℕ

/-- `disable_cache` and `disable_cach` map a region to itself without the cache, in the current
tables. -/
def disableCache (box : ρ) (region : IoRegion) : Method (σ × ℕ) PUnit := do
  let last ← Usize.add region.start region.size
  -- `with_current_page_table`
  let table ← readCr3
  Method.onFst (createMapping box region.start last region.start .readWriteIo table
    |>.expect "Failed to create mapping")
  writeCr3 table

/-- `disable_cache` for regions one after the other. -/
def disableCaches (box : ρ) : List IoRegion → Method (σ × ℕ) PUnit
  | [] => return ⟨⟩
  | region :: regions => do
    disableCache box region
    disableCaches box regions

end InitPading

/-- The tables in memory, and CR3. -/
abbrev PageTables : Type := TableMemory × ℕ

/-! ## The end of memory -/

section EndOfMem

variable {es : List EfiMemoryDescriptor}

/-- The end of the memory of the descriptors. -/
def ramEnd (es : List EfiMemoryDescriptor) (last : ℕ) : ℕ :=
  (es.filter fun e => e.IsRam).foldl (fun last e => max last e.span.hi) last

/-- One more descriptor, which counts if it is RAM. -/
theorem ramEnd_cons (e : EfiMemoryDescriptor) (es : List EfiMemoryDescriptor) (last : ℕ) :
    ramEnd (e :: es) last = if e.IsRam then ramEnd es (max last e.span.hi) else ramEnd es last := by
  unfold ramEnd
  split_ifs with h <;> simp [h]

theorem le_ramEnd (es : List EfiMemoryDescriptor) (last : ℕ) : last ≤ ramEnd es last := by
  induction es generalizing last with
  | nil => exact le_rfl
  | cons e es ih =>
    rw [ramEnd_cons]
    split_ifs
    · exact (Nat.le_max_left ..).trans (ih _)
    · exact ih last

/-- No RAM lies behind the end of the RAM. -/
theorem hi_le_ramEnd (last : ℕ) {e : EfiMemoryDescriptor} (he : e ∈ es) (hram : e.IsRam) :
    e.span.hi ≤ ramEnd es last := by
  induction es generalizing last with
  | nil => cases he
  | cons d es ih =>
    rw [ramEnd_cons]
    rcases List.mem_cons.1 he with rfl | he
    · rw [if_pos hram]
      exact (Nat.le_max_right ..).trans (le_ramEnd es _)
    · split_ifs <;> exact ih _ he

/-- The end of the RAM is bounded by the ends of the descriptors. -/
theorem ramEnd_le (last : ℕ) {bound : ℕ} (hlast : last ≤ bound)
    (hbound : ∀ e ∈ es, e.IsRam → e.span.hi ≤ bound) : ramEnd es last ≤ bound := by
  induction es generalizing last with
  | nil => exact hlast
  | cons e es ih =>
    rw [List.forall_mem_cons] at hbound
    rw [ramEnd_cons]
    split_ifs with hram
    · exact ih _ (Nat.max_le.2 ⟨hlast, hbound.1 hram⟩) hbound.2
    · exact ih _ hlast hbound.2

/-- The loop does not overflow where the memory ends below `2 ^ 64`. -/
theorem endOfMem_run {σ : Type} (last : ℕ)
    (hbound : ∀ e ∈ es, e.IsRam → e.span.hi < 2 ^ 64) (s : σ) :
    endOfMem es last s = .ok (ramEnd es last) s := by
  induction es generalizing last with
  | nil => rfl
  | cons e es ih =>
    rw [List.forall_mem_cons] at hbound
    rw [endOfMem, ramEnd_cons]
    split_ifs with hram
    · have hhi : e.physicalStart + e.numberOfPages * pageSize < 2 ^ 64 := hbound.1 hram
      rw [Usize.mul_bind (lt_of_le_of_lt (Nat.le_add_left _ _) hhi), Usize.add_bind hhi]
      exact ih _ hbound.2
    · exact ih _ hbound.2

end EndOfMem

/-! ## The mappings -/

namespace IoRegion

/-- The end of the region. Of an empty region the first page is mapped. -/
def limit (region : IoRegion) : ℕ := region.start + max region.size 1

/-- The pages of the region contain the address. -/
def Covers (region : IoRegion) (va : ℕ) : Prop :=
  region.start ≤ pageOf va ∧ pageOf va < region.limit

instance (region : IoRegion) (va : ℕ) : Decidable (region.Covers va) :=
  inferInstanceAs (Decidable (_ ∧ _))

/-- A bound on the number of tables for the region. -/
def tables (region : IoRegion) : ℕ :=
  tablesFor (region.start / 4096) ((region.limit + 4095) / 4096)

/-- The call of `create_mapping` for a region. -/
def call (region : IoRegion) (hend : region.limit ≤ 2 ^ 47) : MapCall where
  virtStart := region.start
  virtEnd := region.limit
  phys := region.start
  attr := .readWriteIo
  start_lt_end := Nat.lt_add_of_pos_right (Nat.lt_of_lt_of_le Nat.one_pos (Nat.le_max_right _ 1))
  one_half := .inl hend

/-- The call for a region that is aligned. -/
def request (region : IoRegion) (haligned : region.start % 4096 = 0)
    (hend : region.limit ≤ 2 ^ 47) : MapRequest where
  virtStart := region.start
  virtEnd := region.limit
  phys := region.start
  attr := .readWriteIo
  start_aligned := haligned
  start_lt_end := by
    rw [limit]
    omega
  end_le := hend
  phys_aligned := haligned

end IoRegion

/-- An address that is mapped to itself. -/
def identityTo (attr : PageAttr) (va : ℕ) : Translation where
  phys := va
  flags := List.replicate 3 PageAttr.readWriteKernel.toU64 ++ [attr.toU64]

/-- What `init_pading` makes of an address, for memory up to `last`. -/
def initialTranslation (last va : ℕ) : Option Translation :=
  if 4096 ≤ va ∧ pageOf va < last then some (identityTo .readWriteKernel va) else none

/-- A request that maps its pages to themselves. -/
theorem translation_identity {r : MapRequest} {va : ℕ} (hphys : r.phys = r.virtStart)
    (hattr : r.attr ≠ .notPresent) (hcovers : r.Covers va) :
    r.translation va = some (identityTo r.attr va) := by
  have hstart : r.virtStart ≤ va / 4096 * 4096 := hcovers.1
  have haddr : r.phys + (pageOf va - r.virtStart) + va % 4096 = va := by
    rw [hphys, pageOf]
    omega
  rw [MapRequest.translation, if_neg hattr, haddr]
  rfl

/-- A request that maps to itself stays in the physical addresses. -/
theorem MapRequest.inRange_of_identity {r : MapRequest} (hphys : r.phys = r.virtStart) :
    r.InRange := by
  rintro va ⟨hlo, hhi⟩
  have hend := r.end_le
  rw [hphys]
  omega

/-- `expect` returns what the result holds. -/
theorem Method.expect_of_ok {σ α : Type} {x : Method σ α} {s s' : σ} {a : α} (msg : String)
    (h : x s = .ok a s') : x.expect msg s = .ok a s' := by
  have hattempt : x.attempt s = .ok (.ok a) s' := by rw [Method.attempt, h]
  rw [Method.expect, Method.bind_of_ok hattempt]
  rfl

/-- `expect` panics where the result is an error. -/
theorem Method.expect_of_error {σ α : Type} {x : Method σ α} {s s' : σ} {e : Fault} (msg : String)
    (h : x s = .error e s') : ∃ text, x.expect msg s = .error (.panic text) s' := by
  cases e with
  | err cause =>
    have hattempt : x.attempt s = .ok (.error cause) s' := by rw [Method.attempt, h]
    refine ⟨msg, ?_⟩
    rw [Method.expect, Method.bind_of_ok hattempt]
    rfl
  | panic text =>
    have hattempt : x.attempt s = .error (.panic text) s' := by rw [Method.attempt, h]
    exact ⟨text, by rw [Method.expect, Method.bind_of_error hattempt]⟩

/-- The code returns in a state with `Q`, or it panics in one with `P`. -/
def Method.ReturnsOr {σ : Type} (P Q : σ → Prop) (x : Method σ PUnit) (s : σ) : Prop :=
  (∃ s', x s = .ok ⟨⟩ s' ∧ Q s') ∨ ∃ msg s', x s = .error (.panic msg) s' ∧ P s'

/-- A sequence panics in its first part or goes on from where that returns. -/
theorem Method.ReturnsOr.bind {σ : Type} {P P' Q R : σ → Prop} {x : Method σ PUnit}
    {f : PUnit → Method σ PUnit} {s : σ} (hx : Method.ReturnsOr P Q x s)
    (hP : ∀ s', P s' → P' s') (hf : ∀ s', Q s' → Method.ReturnsOr P' R (f ⟨⟩) s') :
    Method.ReturnsOr P' R (x >>= f) s := by
  rcases hx with ⟨s', hrun, hQ⟩ | ⟨msg, s', hrun, hpanics⟩
  · rw [Method.ReturnsOr, Method.bind_of_ok hrun]
    exact hf s' hQ
  · exact .inr ⟨msg, s', Method.bind_of_error hrun, hP s' hpanics⟩

theorem Method.ReturnsOr.imp {σ : Type} {P P' Q Q' : σ → Prop} {x : Method σ PUnit} {s : σ}
    (hx : Method.ReturnsOr P Q x s) (hP : ∀ s', P s' → P' s') (hQ : ∀ s', Q s' → Q' s') :
    Method.ReturnsOr P' Q' x s :=
  Or.imp (fun ⟨s', hrun, h⟩ => ⟨s', hrun, hQ s' h⟩)
    (fun ⟨msg, s', hrun, h⟩ => ⟨msg, s', hrun, hP s' h⟩) hx

section Mappings

variable {box : BoxSource} {root base : ℕ} {own : Owners} {s : TableMemory} {k : ℕ}

/-- The tables that CR3 points to, after at most `k` calls of `Box::new`. -/
structure InUse (box : BoxSource) (root base k : ℕ) (translation : ℕ → Option Translation)
    (s : PageTables) : Prop where
  cr3 : s.2 = root
  tree : ∃ own, OwnTree box root base own s.1
  boxes_le : s.1.boxes ≤ base + k
  translate_eq : ∀ va < 2 ^ 47, translate s.1.mem root va = translation va

/-- `Box::new` has run out of pages, after at most `k` calls. -/
def Exhausted (box : BoxSource) (base k : ℕ) (s : PageTables) : Prop :=
  box.supply ≤ s.1.boxes ∧ s.1.boxes ≤ base + k

/-- A pool that is exhausted for fewer pages is so for more. -/
theorem Exhausted.mono {box : BoxSource} {base k l : ℕ} {s : PageTables}
    (h : Exhausted box base k s) (hle : k ≤ l) : Exhausted box base l s :=
  ⟨h.1, h.2.trans (Nat.add_le_add_left hle base)⟩

/-- One call of `create_mapping` whose error is not expected. -/
theorem expect_createMapping {r : MapRequest} (hs : OwnTree box root base own s)
    (hboxes : s.boxes ≤ base + k) (hrange : r.InRange) (msg : String) :
    (∃ own' s', (createMapping box r.virtStart r.virtEnd r.phys r.attr root).expect msg s =
        .ok () s' ∧ OwnTree box root base own' s' ∧
      s'.boxes ≤ base + (k + tablesFor r.first r.limit) ∧
      ∀ va < 2 ^ 47, translate s'.mem root va =
        if r.Covers va then r.translation va else translate s.mem root va) ∨
    ∃ text s', (createMapping box r.virtStart r.virtEnd r.phys r.attr root).expect msg s =
        .error (.panic text) s' ∧ box.supply ≤ s'.boxes ∧
      s'.boxes ≤ base + (k + tablesFor r.first r.limit) := by
  rcases PML4.mapped_or_outOfMemory hs hrange with ⟨own', s', hrun, htree, hle, htranslate⟩ |
    ⟨own', s', hrun, -, hle, hsupply⟩
  · exact .inl ⟨own', s', Method.expect_of_ok msg hrun, htree, by omega, htranslate⟩
  · obtain ⟨text, hexpect⟩ := Method.expect_of_error msg hrun
    exact .inr ⟨text, s', hexpect, hsupply, by omega⟩

variable {region : IoRegion} {translation : ℕ → Option Translation} {tables : PageTables}

/-- The call of `create_mapping` for a region. -/
theorem createMapping_region (box : BoxSource) (root : ℕ) (hend : region.limit ≤ 2 ^ 47) :
    createMapping box region.start (region.start + region.size) region.start .readWriteIo root =
      createMapping box region.start region.limit region.start .readWriteIo root := by
  rw [IoRegion.limit] at hend ⊢
  rcases Nat.eq_zero_or_pos region.size with hsize | hsize
  -- an empty region ends in its first page
  · exact PML4.createMapping_firstPage box region.start root .readWriteIo (by omega) (by omega)
      (by omega)
  · rw [Nat.max_eq_left hsize]

/-- The call of `create_mapping` decides how `disable_cache` ends. -/
theorem run_disableCache (hend : region.limit ≤ 2 ^ 47) (tables : PageTables) :
    disableCache box region tables = (do
      Method.onFst (createMapping box region.start region.limit region.start .readWriteIo tables.2
        |>.expect "Failed to create mapping")
      writeCr3 tables.2) tables := by
  have hlimit : region.limit = region.start + max region.size 1 := rfl
  have hread : readCr3 tables = .ok tables.2 tables := rfl
  rw [disableCache, Usize.add_bind (by omega), Method.bind_of_ok hread,
    createMapping_region box _ hend]

/-- An aligned region is mapped without the cache and to itself. -/
theorem disableCache_returns (hs : InUse box root base k translation tables)
    (haligned : region.start % 4096 = 0) (hend : region.limit ≤ 2 ^ 47) :
    Method.ReturnsOr (Exhausted box base (k + region.tables))
      (InUse box root base (k + region.tables) fun va =>
        if region.Covers va then some (identityTo .readWriteIo va) else translation va)
      (disableCache box region) tables := by
  obtain ⟨s, cr3⟩ := tables
  obtain ⟨rfl, ⟨own, htree⟩, hboxes, htranslation⟩ := hs
  have hrange : (region.request haligned hend).InRange := MapRequest.inRange_of_identity rfl
  rw [Method.ReturnsOr, run_disableCache hend]
  rcases expect_createMapping htree hboxes hrange "Failed to create mapping" with
    ⟨own', s', hrun, htree', hle, htr⟩ | ⟨text, s', hrun, hsupply, hle⟩
  · refine .inl ⟨(s', cr3), Method.bind_of_ok (Method.onFst_of_ok hrun cr3), rfl, ⟨own', htree'⟩,
      hle, fun va hva => ?_⟩
    rw [htr va hva, htranslation va hva]
    by_cases hcovers : region.Covers va
    · rw [if_pos hcovers]
      exact (if_pos hcovers).trans (translation_identity rfl nofun hcovers)
    · rw [if_neg hcovers]
      exact if_neg hcovers
  · exact .inr ⟨text, (s', cr3), Method.bind_of_error (Method.onFst_of_error hrun cr3), hsupply,
      hle⟩

/-- A region that is not aligned is refused. -/
theorem disableCache_panics (hs : InUse box root base k translation tables)
    (hunaligned : region.start % 4096 ≠ 0) (hend : region.limit ≤ 2 ^ 47) :
    ∃ msg tables', disableCache box region tables = .error (.panic msg) tables' := by
  obtain ⟨s, cr3⟩ := tables
  obtain ⟨rfl, ⟨own, htree⟩, -⟩ := hs
  let call := region.call hend
  rw [run_disableCache hend]
  rcases htree.createMapping_cases call with ⟨own', s', -, -, hmapped⟩ | ⟨own', e, s', m, hrun, -⟩
  · have hset := hmapped.2.1 call.first le_rfl call.first_lt_limit
    exact absurd (MapCall.refusal_eq_none_iff.1 hset).2 hunaligned
  · obtain ⟨text, hexpect⟩ := Method.expect_of_error "Failed to create mapping" hrun
    exact ⟨text, (s', cr3), Method.bind_of_error (Method.onFst_of_error hexpect cr3)⟩

/-- The regions are mapped one after the other. -/
theorem disableCaches_returns {regions : List IoRegion}
    (hs : InUse box root base k translation tables)
    (hend : ∀ region ∈ regions, region.limit ≤ 2 ^ 47) :
    Method.ReturnsOr
      (fun tables' => (∃ region ∈ regions, region.start % 4096 ≠ 0) ∨
        Exhausted box base (k + (regions.map IoRegion.tables).sum) tables')
      (fun tables' => (∀ region ∈ regions, region.start % 4096 = 0) ∧
        InUse box root base (k + (regions.map IoRegion.tables).sum)
          (fun va => if ∃ region ∈ regions, region.Covers va then
            some (identityTo .readWriteIo va) else translation va) tables')
      (disableCaches box regions) tables := by
  induction regions generalizing k translation tables with
  | nil => exact .inl ⟨tables, rfl, by simp, by simpa using hs⟩
  | cons region regions ih =>
    rw [List.forall_mem_cons] at hend
    simp only [List.map_cons, List.sum_cons, List.exists_mem_cons_iff, List.forall_mem_cons]
    by_cases haligned : region.start % 4096 = 0
    · rw [← Nat.add_assoc]
      refine (disableCache_returns hs haligned hend.1).bind
        (fun s' h => .inr (h.mono (Nat.le_add_right _ _))) fun s' hs' => (ih hs' hend.2).imp ?_ ?_
      · rintro s'' (hunaligned | hexhausted)
        · exact .inl (.inr hunaligned)
        · exact .inr hexhausted
      · rintro s'' ⟨hrest, hin⟩
        refine ⟨⟨haligned, hrest⟩, hin.cr3, hin.tree, hin.boxes_le, fun va hva => ?_⟩
        rw [hin.translate_eq va hva]
        by_cases hfirst : region.Covers va <;> by_cases hlast : ∃ r ∈ regions, r.Covers va <;>
          simp [hfirst, hlast]
    · obtain ⟨msg, tables', hrun⟩ := disableCache_panics hs haligned hend.1
      exact .inr ⟨msg, tables', Method.bind_of_error hrun, .inl (.inl haligned)⟩

/-- A bound on the number of tables that `init_pading` needs. -/
def initialTables (map : MemoryMapHolder) : ℕ :=
  1 + tablesFor 0 ((ramEnd map.descriptors 0x100000000 + 4095) / 4096) + tablesFor 0 1

/-- The first address is that of a page. -/
theorem zero_aligned : 0 % 4096 = 0 := rfl

/-- A call of `create_mapping` in `init_pading`: both map from the first address on. -/
abbrev requestFromZero (last : ℕ) (attr : PageAttr) (hpos : 0 < last) (hend : last ≤ 2 ^ 47) :
    MapRequest where
  virtStart := 0
  virtEnd := last
  phys := 0
  attr := attr
  start_aligned := zero_aligned
  start_lt_end := hpos
  end_le := hend
  phys_aligned := zero_aligned

/-- The second call decides about the page at address 0, and the first one about the rest. -/
theorem initialTranslation_eq {last : ℕ} (hpos : 0 < last) (hend : last ≤ 2 ^ 47) (va : ℕ) :
    let all := requestFromZero last .readWriteKernel hpos hend
    let page0 := requestFromZero 4096 .notPresent (by decide) (by decide)
    (if page0.Covers va then page0.translation va
      else if all.Covers va then all.translation va else none) = initialTranslation last va := by
  intro all page0
  have hpage0 : page0.Covers va ↔ va < 4096 := by
    show 0 ≤ va / 4096 * 4096 ∧ va / 4096 * 4096 < 4096 ↔ va < 4096
    omega
  have hall : all.Covers va ↔ pageOf va < last := and_iff_right (Nat.zero_le _)
  unfold initialTranslation
  by_cases hlow : va < 4096
  · rw [if_pos (hpage0.2 hlow), if_neg (by omega)]
    rfl
  · rw [if_neg fun h => hlow (hpage0.1 h)]
    by_cases hin : pageOf va < last
    · rw [if_pos (hall.2 hin), if_pos ⟨by omega, hin⟩]
      exact translation_identity rfl nofun (hall.2 hin)
    · rw [if_neg fun h => hin (hall.1 h), if_neg fun h => hin h.2]

/-- The tables of `init_pading`: memory is mapped to itself, except for the page at address 0. -/
theorem initPading_returns {map : MemoryMapHolder} (cr3 : ℕ)
    (hram : ∀ e ∈ map.descriptors, e.IsRam → e.span.hi ≤ 2 ^ 47) :
    Method.ReturnsOr (Exhausted box s.boxes (initialTables map))
      (InUse box (box.addr s.boxes) s.boxes (initialTables map)
        (initialTranslation (ramEnd map.descriptors 0x100000000)))
      (initPading box map) (s, cr3) := by
  have hlo := le_ramEnd map.descriptors 0x100000000
  have hhi := ramEnd_le 0x100000000 (by decide) hram
  -- all of memory, and the page that is taken out again
  let all := requestFromZero (ramEnd map.descriptors 0x100000000) .readWriteKernel (by omega) hhi
  let page0 := requestFromZero 4096 .notPresent (by decide) (by decide)
  have hneeded : 1 + tablesFor all.first all.limit + tablesFor page0.first page0.limit =
      initialTables map := by
    rw [show all.first = 0 from Nat.zero_div 4096, show page0.first = 0 from Nat.zero_div 4096,
      show page0.limit = 1 by decide]
    rfl
  by_cases hbox : s.boxes < box.supply
  case neg =>
    have hnew : PML4.new box s = .error outOfMemory s := Entry.run_newZeroed_exhausted hbox
    exact .inr ⟨_, (s, cr3), Method.bind_of_error (Method.onFst_of_error hnew cr3),
      Nat.le_of_not_lt hbox, Nat.le_add_right _ _⟩
  obtain ⟨own, s₀, hnew, hs, hempty⟩ := PML4.ownTree_new hbox
  have hboxes : s₀.boxes ≤ s.boxes + 1 := by
    have hrun := hnew.symm.trans (Entry.run_newZeroed hbox)
    cases hrun
    exact le_rfl
  have hend := endOfMem_run 0x100000000
    (fun e he hr => (hram e he hr).trans_lt (by decide)) (s₀, cr3)
  rw [Method.ReturnsOr, initPading, Method.bind_of_ok (Method.onFst_of_ok hnew cr3),
    Method.bind_of_ok hend]
  rcases expect_createMapping (r := all) hs hboxes (MapRequest.inRange_of_identity rfl)
    "failed to create initial page mapping" with
      ⟨own₁, s₁, hrun₁, hs₁, hle₁, htr₁⟩ | ⟨text, s₁, hrun₁, hsupply, hle₁⟩
  case inr =>
    exact .inr ⟨text, (s₁, cr3), Method.bind_of_error (Method.onFst_of_error hrun₁ cr3),
      Exhausted.mono ⟨hsupply, hle₁⟩ (hneeded ▸ Nat.le_add_right _ _)⟩
  rw [Method.bind_of_ok (Method.onFst_of_ok hrun₁ cr3)]
  rcases expect_createMapping (r := page0) hs₁ hle₁ (MapRequest.inRange_of_identity rfl)
    "Failed to unmap page 0" with
      ⟨own₂, s₂, hrun₂, hs₂, hle₂, htr₂⟩ | ⟨text, s₂, hrun₂, hsupply, hle₂⟩
  all_goals rw [hneeded] at hle₂
  case inr =>
    exact .inr ⟨text, (s₂, cr3), Method.bind_of_error (Method.onFst_of_error hrun₂ cr3), hsupply,
      hle₂⟩
  refine .inl ⟨(s₂, box.addr s.boxes), ?_, rfl, ⟨own₂, hs₂⟩, hle₂, fun va hva => ?_⟩
  · rw [Method.bind_of_ok (Method.onFst_of_ok hrun₂ cr3)]
    rfl
  · rw [htr₂ va hva, htr₁ va hva, hempty va]
    exact initialTranslation_eq (by omega) hhi va

end Mappings

/-- For every memory map with memory below `2 ^ 47` and every list of regions below `2 ^ 47`:
`init_pading` and the calls of `disable_cache` and `disable_cach` after it return, with the new
tables in CR3, or they panic. They return for regions that begin with a page only, and every
address below `2 ^ 47` is then mapped to itself or not at all: without the cache in the regions,
otherwise as memory up to the end of the memory map, and at least up to 4 GiB, except for the page
at address 0. In particular all memory of the map outside of that page is mapped. They panic when a
region does not begin with a page, or when `Box::new` has run out of pages, of which they take no
more than `initialTables` and `IoRegion.tables` say. -/
theorem initPading_identity (box : BoxSource) (map : MemoryMapHolder) (regions : List IoRegion)
    (s : TableMemory) (cr3 : ℕ) (hram : ∀ e ∈ map.descriptors, e.IsRam → e.span.hi ≤ 2 ^ 47)
    (hend : ∀ region ∈ regions, region.limit ≤ 2 ^ 47) :
    let run := (initPading box map >>= fun _ => disableCaches box regions) (s, cr3)
    let needed := initialTables map + (regions.map IoRegion.tables).sum
    (∃ s' root, run = .ok ⟨⟩ (s', root) ∧ (∀ region ∈ regions, region.start % 4096 = 0) ∧
      (∀ va < 2 ^ 47, translate s'.mem root va =
        if ∃ region ∈ regions, region.Covers va then some (identityTo .readWriteIo va)
        else initialTranslation (ramEnd map.descriptors 0x100000000) va) ∧
      ∀ e ∈ map.descriptors, e.IsRam → ∀ va ∈ e.span, 4096 ≤ va →
        ∃ attr, attr ≠ PageAttr.notPresent ∧
          translate s'.mem root va = some (identityTo attr va)) ∨
    ∃ msg s' root, run = .error (.panic msg) (s', root) ∧
      ((∃ region ∈ regions, region.start % 4096 ≠ 0) ∨
        box.supply ≤ s'.boxes ∧ s'.boxes ≤ s.boxes + needed) := by
  intro run needed
  have hreturns : Method.ReturnsOr (fun tables' =>
      (∃ region ∈ regions, region.start % 4096 ≠ 0) ∨ Exhausted box s.boxes needed tables')
      _ (initPading box map >>= fun _ => disableCaches box regions) (s, cr3) :=
    (initPading_returns cr3 hram).bind (fun s' h => .inr (h.mono (Nat.le_add_right _ _)))
      fun s' hs' => disableCaches_returns hs' hend
  rcases hreturns with ⟨⟨s', root⟩, hrun, haligned, hin⟩ | ⟨msg, ⟨s', root⟩, hrun, hpanics⟩
  case inr => exact .inr ⟨msg, s', root, hrun, hpanics⟩
  obtain ⟨rfl, -, -, htr⟩ := hin
  refine .inl ⟨s', _, hrun, haligned, htr, ?_⟩
  rintro e he hr va ⟨hlo, hhi⟩ hpage
  -- an address of memory is below the end, so that its page is among those that were mapped
  have hlast := hi_le_ramEnd 0x100000000 he hr
  have hle : pageOf va ≤ va := Nat.div_mul_le_self va 4096
  rw [htr va (hhi.trans_le (hram e he hr))]
  split_ifs with hio
  · exact ⟨.readWriteIo, by decide, rfl⟩
  · refine ⟨.readWriteKernel, by decide, ?_⟩
    exact if_pos ⟨hpage, lt_of_le_of_lt hle (hhi.trans_le hlast)⟩

/-- The registers of an interrupt controller. -/
def IoRegion.localApic : IoRegion where
  start := 0xfee00000
  size := pageSize

/-- A memory map with three pages, a region of one page and an empty one: the run returns. -/
theorem initPading_identity_threePages :
    let regions : List IoRegion := [.localApic, { start := 0xfed00000, size := 0 }]
    ∃ s' root, (initPading BoxSource.consecutive MemoryMapHolder.threePages >>= fun _ =>
        disableCaches BoxSource.consecutive regions) (⟨fun _ => 0, 0, []⟩, 0) = .ok ⟨⟩ (s', root) ∧
      (∀ va < 2 ^ 47, translate s'.mem root va =
        if ∃ region ∈ regions, region.Covers va then some (identityTo .readWriteIo va)
        else initialTranslation (ramEnd MemoryMapHolder.threePages.descriptors 0x100000000) va) ∧
      ∀ e ∈ MemoryMapHolder.threePages.descriptors, e.IsRam → ∀ va ∈ e.span, 4096 ≤ va →
        ∃ attr, attr ≠ PageAttr.notPresent ∧
          translate s'.mem root va = some (identityTo attr va) := by
  intro regions
  have hneeded : initialTables MemoryMapHolder.threePages +
      (regions.map IoRegion.tables).sum < BoxSource.consecutive.supply := by decide
  rcases initPading_identity .consecutive MemoryMapHolder.threePages regions ⟨fun _ => 0, 0, []⟩ 0
    (by decide) (by decide) with ⟨s', root, hrun, -, h⟩ | ⟨msg, s', root, -, hunaligned | hsupply⟩
  · exact ⟨s', root, hrun, h⟩
  · exact absurd hunaligned (by decide)
  · simp only at hsupply
    omega

end Mushix
