import Mushix.Paging.HeapTables
import Mushix.Xhci.CommandRing
import Mushix.Xhci.EventRing
import Mushix.Xhci.Scratchpad

/-!
# The memory that the controller reads

What `Controller::new` (`xhci.rs`) puts into the heap before the controller runs: two rings and a
segment table, each in an `IoBox` (`mmio.rs`), and the array with the device contexts. Elsewhere a
ring is a value with an address; here it is made of bytes behind a pointer.

* `IoBox.new`: a page of zeros, for which `disable_cache` changes the page tables;
* `EventRingBox.new`, `CommandRingBox.default`, `DeviceContextBaseAddressArray.new`: the
  constructors;
* `ends_new`, `ends_default`: the bytes are those of `EventState.fresh` and of
  `CommandRing.default`, in pages without the cache.
-/

namespace Mushix

open Bytes (toLE)
open HeapSystem (Fills storeBytes)
open Method (Ends)
open Packed (Stores)

/-- A store to a register. -/
inductive Store where
  | word (addr : ℕ) (value : BitVec 32)
  | dword (addr : ℕ) (value : BitVec 64)
  deriving DecidableEq, Repr

/-- The hardware, and what the program has done to it. -/
structure Device (σ : Type) where
  hardware : σ
  /-- The stores to registers, the last one first. -/
  stores : List Store
  /-- The register with the address of the page tables. -/
  cr3 : ℕ

variable {σ : Type}

/-! ## Pages for the hardware -/

/-- The allocation of an `IoBox` for a type of up to a page, which is rounded up to it. -/
def IoBoxAddr.page (self : IoBoxAddr) : Allocation := ⟨self.addr.toNat, .page4K⟩

/-- A pointer to an `IoBoxInner`, which must be aligned. -/
def IoBoxAddr.ofPtr (ptr : ℕ) : Option IoBoxAddr :=
  if h : (BitVec.ofNat 64 ptr).toNat % 4096 = 0 then some ⟨BitVec.ofNat 64 ptr, h⟩ else none

/-- The number of this page. -/
def IoBoxAddr.number (self : IoBoxAddr) : ℕ := self.addr.toNat / 4096

/-- The region that `disable_cache` gets: `as_ref` and `size_of_val`. -/
@[irreducible]
def IoBoxAddr.region (self : IoBoxAddr) : IoRegion where
  start := self.addr.toNat
  size := pageSize

/-- A method on the memory and on CR3. -/
def Device.onTables {α : Type} (x : Method (HeapSystem × ℕ) α) :
    Method (HeapSystem × Device σ) α := fun u =>
  match x (u.1, u.2.cr3) with
  | .ok a v => .ok a (v.1, { u.2 with cr3 := v.2 })
  | .error e v => .error e (v.1, { u.2 with cr3 := v.2 })

/-- `IoBox::new`, for a type whose fields are the first `n` bytes of its page. -/
def IoBox.new (n : ℕ) : Method (HeapSystem × Device σ) IoBoxAddr := do
  let inner ← Method.onFst (boxNew .page4K (List.replicate n 0))
  -- a debug build checks a pointer that it uses
  let this ← Method.ofOption (.panic "misaligned pointer dereference") (IoBoxAddr.ofPtr inner)
  Device.onTables (disableCache GlobalAllocator.allocator this.region)
  return this

variable {seed : Seeding} {P : Bytes.Memory → Prop} {ns : List ℕ}
  {cs : List (Allocation × List (BitVec 8))} {s : HeapSystem} {d : Device σ}

/-- A client of the heap that knows what it has stored, and for which of its pages the cache is
disabled. -/
abbrev Prepared (seed : Seeding) (cr3 : ℕ) (ns : List ℕ)
    (cs : List (Allocation × List (BitVec 8))) (s : HeapSystem) : Prop :=
  Fills seed (Uncached seed.ranges cr3 ns) cs s

/-- An aligned pointer is the address of a page. -/
theorem IoBoxAddr.ofPtr_eq {ptr : ℕ} (hlt : ptr < 2 ^ 64) (h : ptr % 4096 = 0) :
    ∃ box, ofPtr ptr = some box ∧ box.page = ⟨ptr, .page4K⟩ := by
  have hnat : (BitVec.ofNat 64 ptr).toNat = ptr := by
    rw [BitVec.toNat_ofNat, Nat.mod_eq_of_lt hlt]
  have haligned : (BitVec.ofNat 64 ptr).toNat % 4096 = 0 := hnat.symm ▸ h
  exact ⟨⟨BitVec.ofNat 64 ptr, haligned⟩, dif_pos haligned, by rw [page, hnat]⟩

/-- The cache is disabled for a page that was allocated. No register is written. -/
theorem Device.onTables_region {box : IoBoxAddr} {bytes : List (BitVec 8)}
    (h : Prepared seed d.cr3 ns ((box.page, bytes) :: cs) s) :
    ∃ s', Device.onTables (disableCache GlobalAllocator.allocator box.region) (s, d) =
        .ok ⟨⟩ (s', d) ∧
      Prepared seed d.cr3 (box.number :: ns) ((box.page, bytes) :: cs) s' := by
  -- the page is one of the heap, for which only an entry is stored
  obtain ⟨r, hr, hin⟩ := h.within List.mem_cons_self
  have hfirst : box.addr.toNat ∈ box.page.bytes :=
    ⟨le_rfl, Nat.lt_add_of_pos_right (by decide : 0 < 4096)⟩
  obtain ⟨s', hrun, hprepared⟩ := h.disableCache ⟨r, hr, box.addr.toNat, hin.mem hfirst, rfl⟩
  rw [Nat.mul_div_cancel' (Nat.dvd_of_mod_eq_zero box.aligned)] at hrun
  have hregion : disableCache GlobalAllocator.allocator box.region (s, d.cr3) =
      .ok ⟨⟩ (s', d.cr3) := by rw [IoBoxAddr.region, ← hrun, pageSize]
  exact ⟨s', by rw [Device.onTables, hregion], hprepared⟩

/-- The page of an `IoBox` is allocated, zero, and without the cache. No register is written. -/
theorem IoBox.ends_new (h : Prepared seed d.cr3 ns cs s) {n : ℕ} (hn : n ≤ 4096) :
    Ends (fun u => u.2.stores = d.stores)
      (fun box u =>
        Prepared seed d.cr3 (box.number :: ns) ((box.page, List.replicate n 0) :: cs) u.1 ∧
          u.2 = d)
      (IoBox.new n) (s, d) := by
  have hlen : (List.replicate n (0 : BitVec 8)).length ≤ Layout.page4K.size := by
    rwa [List.length_replicate]
  refine (h.boxNew .page4K (by decide) hlen).onFst.bind_imp
    (fun u hu => congrArg Device.stores hu.2) ?_
  rintro inner ⟨s', d'⟩ ⟨⟨hlt, halign, hfills⟩, rfl⟩
  -- the allocator has aligned the page
  obtain ⟨box, hptr, hpage⟩ := IoBoxAddr.ofPtr_eq hlt halign
  have hthis : Method.ofOption (.panic "misaligned pointer dereference") (IoBoxAddr.ofPtr inner)
      (s', d') = .ok box (s', d') := by rw [hptr]; rfl
  rw [← hpage] at hfills
  obtain ⟨s₂, hrun, hprepared⟩ := Device.onTables_region hfills
  rw [Ends, Method.bind_of_ok hthis, Method.bind_of_ok hrun]
  exact ⟨hprepared, rfl⟩

/-! ## Rings -/

namespace GenericTrbEntry

/-- The bytes of a TRB. -/
def bytes (trb : GenericTrbEntry) : List (BitVec 8) :=
  toLE 8 trb.data.toNat ++ (toLE 4 trb.option.toNat ++ toLE 4 trb.control.toNat)

theorem length_bytes (trb : GenericTrbEntry) : trb.bytes.length = 16 := by
  simp only [bytes, List.length_append, Bytes.length_toLE]

end GenericTrbEntry

namespace TrbRing

/-- The bytes of the fields of a ring. -/
def bytes (r : TrbRing) : List (BitVec 8) :=
  (List.ofFn r.trb).flatMap GenericTrbEntry.bytes ++ toLE 8 r.currentIndex

theorem length_bytes (r : TrbRing) : r.bytes.length = 264 := by
  rw [bytes, List.length_append, Packed.length_flatMap GenericTrbEntry.length_bytes,
    List.length_ofFn, Bytes.length_toLE]

/-- `TrbRing::new()`: the ring behind a pointer. -/
def newBox : Method (HeapSystem × Device σ) IoBoxAddr := IoBox.new 264

/-- `write` to the ring behind a pointer. -/
def writeBox (ring : IoBoxAddr) (index : ℕ) (trb : GenericTrbEntry) : Method HeapSystem PUnit :=
  if index < numTrb then
    storeBytes (ring.addr.toNat + 16 * index) trb.bytes
  else
    throw (.err "TrbRing out of range")

/-- The ring of zeros. -/
theorem bytes_new (base : IoBoxAddr) : (new base).bytes = List.replicate 264 0 := by
  have hdefault : GenericTrbEntry.default.bytes = List.replicate 16 0 := by decide
  have hindex : toLE 8 0 = List.replicate 8 0 := by decide
  change (List.ofFn fun _ : Fin 16 => GenericTrbEntry.default).flatMap _ ++ toLE 8 0 = _
  rw [List.ofFn_const, List.flatMap_replicate, hdefault, hindex,
    List.flatten_replicate_replicate, List.replicate_append_replicate]

theorem ofFn_update {α : Type} {n : ℕ} (f : Fin n → α) (i : Fin n) (x : α) :
    List.ofFn (Function.update f i x) = (List.ofFn f).set i x := by
  apply List.ext_getElem
  · rw [List.length_set, List.length_ofFn, List.length_ofFn]
  · intro j hj _
    rw [List.length_ofFn] at hj
    rw [List.getElem_set, List.getElem_ofFn, List.getElem_ofFn, Function.update_apply]
    by_cases hij : i.val = j
    · rw [if_pos hij, if_pos (Fin.ext hij.symm)]
    · rw [if_neg hij, if_neg fun heq => hij (congrArg Fin.val heq).symm]

/-- A store to the ring behind a pointer is one to its TRBs. -/
theorem writeBox_run {r : TrbRing} (h : Fills seed P ((r.base.page, r.bytes) :: cs) s)
    {index : ℕ} (hi : index < numTrb) (trb : GenericTrbEntry) :
    ∃ s', writeBox r.base index trb s = .ok ⟨⟩ s' ∧
      Fills seed P ((r.base.page, ((write index trb).stateAfter r).bytes) :: cs) s' := by
  -- the store into memory and `write` on the ring do the same
  have hwrite : (write index trb).stateAfter r =
      { r with trb := Function.update r.trb ⟨index, hi⟩ trb } := by
    simp [Method.stateAfter, write, hi]
  have hstores := (h.stores _ List.mem_cons_self).2
  rw [bytes, Packed.Stores.append_iff, Packed.length_flatMap GenericTrbEntry.length_bytes,
    List.length_ofFn] at hstores
  obtain ⟨htrbs, hindex⟩ := hstores
  have hlen : ∀ t : GenericTrbEntry, t.bytes.length = 16 := GenericTrbEntry.length_bytes
  have hlt : index < 16 := hi
  refine ⟨_, by rw [writeBox, if_pos hi]; rfl, h.storeBytes ?_ ?_ ?_⟩
  · refine ⟨Nat.le_add_right _ _, ?_⟩
    show r.base.addr.toNat + 16 * index + trb.bytes.length ≤ r.base.addr.toNat + 4096
    rw [hlen]
    omega
  · rw [length_bytes]
    show 264 ≤ 4096
    decide
  · -- the TRB is replaced, and the index behind the TRBs is not touched
    rw [hwrite, bytes, ofFn_update, Packed.Stores.append_iff,
      Packed.length_flatMap GenericTrbEntry.length_bytes, List.length_set, List.length_ofFn]
    refine ⟨htrbs.set hlen (by rwa [List.length_ofFn]) trb, hindex.store (.inr ?_)⟩
    show r.base.addr.toNat + 16 * index + trb.bytes.length ≤ r.base.addr.toNat + 16 * 16
    rw [hlen]
    omega

/-- A new ring that was closed by a Link TRB. -/
def linked (base : IoBoxAddr) : TrbRing :=
  (write (numTrb - 1) (.trbLink base.addr)).stateAfter (new base)

/-- The first store to a new ring. -/
theorem writeBox_link {base : IoBoxAddr}
    (h : Fills seed P ((base.page, List.replicate 264 0) :: cs) s) :
    ∃ s', writeBox base (numTrb - 1) (.trbLink base.addr) s = .ok ⟨⟩ s' ∧
      Fills seed P ((base.page, (linked base).bytes) :: cs) s' := by
  rw [← bytes_new base] at h
  exact writeBox_run (r := new base) h (by decide) (.trbLink base.addr)

end TrbRing

/-! ## The command ring -/

/-- `CommandRing`, as a pointer. -/
structure CommandRingBox where
  ring : IoBoxAddr
  cycleStateOurs : Bool

namespace CommandRingBox

/-- `CommandRing::default()` links the last TRB of its ring to the first one. -/
def default : Method (HeapSystem × Device σ) CommandRingBox := do
  let ring ← TrbRing.newBox
  let linkTrb := GenericTrbEntry.trbLink ring.addr
  Method.onFst (tryCatch (TrbRing.writeBox ring (TrbRing.numTrb - 1) linkTrb)
    fun _ => throw (.panic "Failed to write link TRB"))
  return { ring, cycleStateOurs := false }

/-- The ring behind the pointer is `CommandRing.default`. -/
theorem ends_default (h : Prepared seed d.cr3 ns cs s) :
    Ends (fun u => u.2.stores = d.stores)
      (fun self u => self.cycleStateOurs = (CommandRing.default self.ring).cycleStateOurs ∧
        Prepared seed d.cr3 (self.ring.number :: ns)
          ((self.ring.page, (CommandRing.default self.ring).ring.bytes) :: cs) u.1 ∧
        u.2 = d)
      default (s, d) := by
  refine (IoBox.ends_new h (by decide)).bind ?_
  rintro ring ⟨s₁, d₁⟩ ⟨hfills, rfl⟩
  obtain ⟨s₂, hrun, hfills₂⟩ := TrbRing.writeBox_link hfills
  have hcatch : tryCatch (TrbRing.writeBox ring (TrbRing.numTrb - 1) (.trbLink ring.addr))
      (fun _ => throw (.panic "Failed to write link TRB")) s₁ = .ok ⟨⟩ s₂ := by
    simp only [tryCatch, tryCatchThe, MonadExceptOf.tryCatch, EStateM.tryCatch, hrun]
  rw [Ends, Method.bind_of_ok (Method.onFst_of_ok hcatch _)]
  exact ⟨rfl, hfills₂, rfl⟩

end CommandRingBox

/-! ## The event ring -/

namespace EventRingSegmentTableEntry

/-- The bytes of an entry. -/
def bytes (self : EventRingSegmentTableEntry) : List (BitVec 8) :=
  toLE 8 self.ringSegmentBaseAddress.toNat ++
    (toLE 2 self.ringSegmentSize.toNat ++ List.replicate 6 0)

/-- `EventRingSegmentTableEntry::new`: the entry behind a pointer. -/
def newBox (ring : IoBoxAddr) : Method (HeapSystem × Device σ) IoBoxAddr := do
  let erst ← IoBox.new 16
  Method.onFst (storeBytes erst.addr.toNat (toLE 8 ring.addr.toNat))
  if TrbRing.numTrb < 2 ^ 16 then
    Method.onFst (storeBytes (erst.addr.toNat + 8) (toLE 2 TrbRing.numTrb))
    return erst
  else
    throw (.err "Too large num trbs")

/-- The entry behind the pointer is the one of the ring. -/
theorem ends_newBox (h : Prepared seed d.cr3 ns cs s) (ring : IoBoxAddr) :
    Ends (fun u => u.2.stores = d.stores)
      (fun erst u => Prepared seed d.cr3 (erst.number :: ns)
          ((erst.page, bytes (EventState.fresh ring erst).erst) :: cs) u.1 ∧
        u.2 = d)
      (newBox ring) (s, d) := by
  refine (IoBox.ends_new h (by decide)).bind ?_
  rintro erst ⟨s₁, d₁⟩ ⟨hfills, rfl⟩
  have hzeros : Fills seed _ ((erst.page, [] ++ (List.replicate 8 0 ++
      (List.replicate 2 0 ++ List.replicate 6 0))) :: cs) s₁ := hfills
  -- the address of the ring, and behind it the number of TRBs
  have hbase : Fills seed _ ((erst.page, toLE 8 ring.addr.toNat ++
      (List.replicate 2 0 ++ List.replicate 6 0)) :: cs) _ :=
    hzeros.replace (Bytes.length_toLE 8 ring.addr.toNat)
  have hsize := hbase.replace (Bytes.length_toLE 2 TrbRing.numTrb)
  rw [Bytes.length_toLE] at hsize
  exact ⟨hsize, rfl⟩

end EventRingSegmentTableEntry

/-- `EventRing`, as pointers. -/
structure EventRingBox where
  ring : IoBoxAddr
  erst : IoBoxAddr
  cycleStateOurs : Bool
  /-- The address of the register ERDP. -/
  erdp : Option ℕ
  waitList : List ℕ

namespace EventRingBox

/-- `EventRing::new()` makes the ring and the segment table with the ring as its one entry. -/
def new : Method (HeapSystem × Device σ) EventRingBox := do
  let ring ← TrbRing.newBox
  let link := GenericTrbEntry.trbLink ring.addr
  Method.onFst (TrbRing.writeBox ring (TrbRing.numTrb - 1) link)
  let erst ← EventRingSegmentTableEntry.newBox ring
  return { ring, erst, cycleStateOurs := true, erdp := none, waitList := [] }

/-- `ring_phys_addr()`: where the interrupter is to find the first event. -/
def ringPhysAddr (self : EventRingBox) : BitVec 64 := self.ring.addr

/-- `erst_phys_addr()`: where the interrupter is to find the segment table. -/
def erstPhysAddr (self : EventRingBox) : BitVec 64 := self.erst.addr

/-- `set_erdp`: the ring is told where it reports what it has read. -/
def setErdp (self : EventRingBox) (erdp : ℕ) : EventRingBox := { self with erdp := some erdp }

/-- The ring and the segment table of an event ring, and their bytes. -/
def contents (evring : EventRing) : List (Allocation × List (BitVec 8)) :=
  [(evring.erstAddr.page, evring.erst.bytes), (evring.ring.base.page, evring.ring.bytes)]

/-- The ring behind the pointers is `EventState.fresh`. -/
theorem ends_new (h : Prepared seed d.cr3 ns cs s) :
    Ends (fun u => u.2.stores = d.stores)
      (fun self u => self.cycleStateOurs = true ∧ self.erdp = none ∧ self.waitList = [] ∧
        Prepared seed d.cr3 (self.erst.number :: self.ring.number :: ns)
          (contents (EventState.fresh self.ring self.erst) ++ cs) u.1 ∧
        u.2 = d)
      new (s, d) := by
  refine (IoBox.ends_new h (by decide)).bind ?_
  rintro ring ⟨s₁, d₁⟩ ⟨hfills, rfl⟩
  obtain ⟨s₂, hrun, hfills₂⟩ := TrbRing.writeBox_link hfills
  rw [Ends, Method.bind_of_ok (Method.onFst_of_ok hrun _)]
  refine (EventRingSegmentTableEntry.ends_newBox hfills₂ ring).bind ?_
  rintro erst ⟨s₃, d₃⟩ ⟨hfills₃, rfl⟩
  exact Ends.pure ⟨rfl, rfl, rfl, hfills₃, rfl⟩

end EventRingBox

/-! ## The device contexts -/

/-- `DeviceContextBaseAddressArray`, with the addresses of the output contexts. -/
structure DeviceContextBaseAddressArray where
  inner : ℕ
  context : Fin 255 → Option ℕ
  scratchpadBuffers : ScratchpadBuffers

namespace DeviceContextBaseAddressArray

/-- The layout of `RawDeviceContextBaseAddressArray`. -/
def layout : Layout where
  size := 2048
  align := 64
  isPowerOfTwo := ⟨6, rfl⟩
  fits := by decide

/-- The bytes of a `RawDeviceContextBaseAddressArray` without contexts. -/
def bytes (scratchpadTablePtr : ℕ) : List (BitVec 8) :=
  toLE 8 scratchpadTablePtr ++ List.replicate (8 * 255) 0

theorem length_bytes (scratchpadTablePtr : ℕ) : (bytes scratchpadTablePtr).length = 2048 := by
  rw [bytes, List.length_append, Bytes.length_toLE, List.length_replicate]

/-- `DeviceContextBaseAddressArray::new`: no device context, and the scratchpad buffers in front. -/
def new (scratchpadBuffers : ScratchpadBuffers) :
    Method HeapSystem DeviceContextBaseAddressArray := do
  let inner ← boxNew layout (bytes scratchpadBuffers.table.ptr)
  return { inner, context := fun _ => none, scratchpadBuffers }

/-- The array is behind the pointer, with the table of the scratchpad buffers in front. -/
theorem ends_new (h : Fills seed P cs s) (buffers : ScratchpadBuffers) :
    Ends (fun _ => True)
      (fun self s' => self.scratchpadBuffers = buffers ∧ self.inner % 64 = 0 ∧
        Fills seed P ((⟨self.inner, layout⟩, bytes buffers.table.ptr) :: cs) s')
      (new buffers) s := by
  refine (h.boxNew layout (by decide) (length_bytes buffers.table.ptr).le).bind ?_
  rintro inner s' ⟨-, halign, hfills⟩
  exact Ends.pure ⟨rfl, halign, hfills⟩

end DeviceContextBaseAddressArray

end Mushix
