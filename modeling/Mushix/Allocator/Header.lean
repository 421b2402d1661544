import Mathlib.Data.Nat.Log
import Mushix.Lib.Bytes
import Mushix.Usize

/-!
# Headers of memory blocks

`Header` (`allocator.rs`): the 32 bytes in front of every block of the heap, with the size of
the block, header included, and a pointer to the next header. A `Box<Header>` is the address of
a header and `None` is the null pointer.

* `Header.provide`: take an allocation from the end of a free block;
* `Header.provide_spec`: the headers that are there afterwards, and that nothing else changes.
-/

namespace Mushix

open Bytes (Memory AgreeOn readLE writeLE)

/-- The content of a `Header`. -/
structure Header where
  /-- The address of the next header, or 0. -/
  nextHeader : ℕ
  /-- The number of bytes from this header to the next one. -/
  size : ℕ
  isAllocated : Bool
  reserved : ℕ
  deriving DecidableEq, Repr

/-- The number of bytes of a `Header`. -/
def headerSize : ℕ := 32

/-- The memory of the machine and the allocator's static variable `first_header`. -/
structure Heap where
  mem : Memory
  firstHeader : ℕ

/-- The least power of two that is not below a number, which must not be 0 or above `2 ^ 63`. -/
def roundUpToNearestPow2 (v : ℕ) : Except String ℕ :=
  let leadingZeros := (BitVec.ofNat 64 v - 1#64).clz.toNat
  if 64 - leadingZeros < 64 then
    .ok ((1#64 <<< (64 - leadingZeros)).toNat)
  else
    .error "Out of range"

namespace Header

/-! ## Headers in memory -/

/-- The header at an address. -/
def load (m : Memory) (a : ℕ) : Header :=
  { nextHeader := readLE m a 8
    size := readLE m (a + 8) 8
    isAllocated := readLE m (a + 16) 1 != 0
    reserved := readLE m (a + 24) 8 }

/-- Store a header. -/
def store (m : Memory) (a : ℕ) (h : Header) : Memory :=
  let m := writeLE m a 8 h.nextHeader
  let m := writeLE m (a + 8) 8 h.size
  let m := writeLE m (a + 16) 1 h.isAllocated.toNat
  writeLE m (a + 24) 8 h.reserved

/-- The fields fit into their words. -/
structure Fits (h : Header) : Prop where
  nextHeader : h.nextHeader < 2 ^ 64
  size : h.size < 2 ^ 64
  reserved : h.reserved < 2 ^ 64

variable {m m' : Memory} {a b x : ℕ} {h : Header}

theorem load_fits (m : Memory) (a : ℕ) : (load m a).Fits where
  nextHeader := Bytes.readLE_lt m a 8
  size := Bytes.readLE_lt m (a + 8) 8
  reserved := Bytes.readLE_lt m (a + 24) 8

/-- A header is read back as it was stored. -/
theorem load_store (m : Memory) (a : ℕ) (hfits : h.Fits) : load (store m a h) a = h := by
  obtain ⟨next, size, allocated, reserved⟩ := h
  have hbool : allocated.toNat < 256 ^ 1 := by cases allocated <;> decide
  unfold load store
  simp only [Header.mk.injEq]
  refine ⟨?_, ?_, ?_, ?_⟩
  · rw [Bytes.readLE_writeLE_of_disjoint (by omega), Bytes.readLE_writeLE_of_disjoint (by omega),
      Bytes.readLE_writeLE_of_disjoint (by omega), Bytes.readLE_writeLE _ _ _ hfits.nextHeader]
  · rw [Bytes.readLE_writeLE_of_disjoint (by omega), Bytes.readLE_writeLE_of_disjoint (by omega),
      Bytes.readLE_writeLE _ _ _ hfits.size]
  · rw [Bytes.readLE_writeLE_of_disjoint (by omega), Bytes.readLE_writeLE _ _ _ hbool]
    cases allocated <;> rfl
  · rw [Bytes.readLE_writeLE _ _ _ hfits.reserved]

/-- A header depends on its own 32 bytes only. -/
theorem load_congr (hagree : AgreeOn a headerSize m m') : load m a = load m' a := by
  have hpart : ∀ ofs n, ofs + n ≤ headerSize → readLE m (a + ofs) n = readLE m' (a + ofs) n :=
    fun ofs n hle => Bytes.readLE_congr fun x hlo hhi => hagree x (by omega) (by omega)
  rw [load, load, hpart 8 8 (by decide), hpart 16 1 (by decide), hpart 24 8 (by decide)]
  rw [show readLE m a 8 = readLE m' a 8 from hpart 0 8 (by decide)]

/-- Storing a header changes its own 32 bytes only. -/
theorem store_of_not_mem (hx : x < a ∨ a + headerSize ≤ x) : store m a h x = m x := by
  unfold headerSize at hx
  unfold store
  rw [Bytes.writeLE_of_not_mem (by omega), Bytes.writeLE_of_not_mem (by omega),
    Bytes.writeLE_of_not_mem (by omega), Bytes.writeLE_of_not_mem (by omega)]

/-- Storing a header does not change another one. -/
theorem load_store_of_disjoint (hab : a + headerSize ≤ b ∨ b + headerSize ≤ a) :
    load (store m a h) b = load m b :=
  load_congr fun x hlo hhi => store_of_not_mem (by omega)

/-- A header that is stored twice is the one stored last. -/
theorem store_store (m : Memory) (a : ℕ) (h h' : Header) :
    store (store m a h) a h' = store m a h' := by
  funext x
  simp only [store, writeLE]
  split_ifs <;> rfl

/-! ## The methods -/

/-- The header that `self` points to. -/
def get (self : ℕ) : Method Heap Header := fun s => .ok (load s.mem self) s

/-- Change the header that `self` points to. -/
def modify (self : ℕ) (f : Header → Header) : Method Heap Unit := fun s =>
  .ok () { s with mem := store s.mem self (f (load s.mem self)) }

/-- A header without reserved data. -/
def ofBlock (nextHeader size : ℕ) (isAllocated : Bool) : Header :=
  { nextHeader, size, isAllocated, reserved := 0 }

/-- An assignment to `next_header`. -/
def setNextHeader (nextHeader : ℕ) (h : Header) : Header := { h with nextHeader }

/-- An assignment to `size`. -/
def setSize (size : ℕ) (h : Header) : Header := { h with size }

/-- An assignment to `is_allocated`. -/
def setIsAllocated (isAllocated : Bool) (h : Header) : Header := { h with isAllocated }

/-- `new_from_addr` writes an empty header to an address. -/
def newFromAddr (addr : ℕ) : Method Heap ℕ := do
  modify addr fun _ => ofBlock 0 0 false
  return addr

/-- The header of an allocation is in front of its bytes. -/
def fromAllocatedRegion (addr : ℕ) : Method Heap ℕ := Usize.sub addr headerSize

/-- The address behind the block. -/
def endAddr (self : ℕ) : Method Heap ℕ := do
  Usize.add self (← get self).size

/-- `take` leaves the null pointer where the pointer to the next header was. -/
def takeNext (self : ℕ) : Method Heap ℕ := do
  let next := (← get self).nextHeader
  modify self (setNextHeader 0)
  return next

/-- `can_provide` is a rough check: the block must have room for the bytes, two headers and the
alignment. -/
def canProvide (self size align : ℕ) : Method Heap Bool := do
  let need ← Usize.add (← Usize.add size (headerSize * 2)) align
  return decide (need ≤ (← get self).size)

/-- The header of the allocation in `provide`, and `size_used`. -/
def splitAllocated (self allocatedAddr size : ℕ) : Method Heap (ℕ × ℕ) := do
  let headerForAllocated ← newFromAddr (← Usize.sub allocatedAddr headerSize)
  modify headerForAllocated (setIsAllocated true)
  let allocatedSize ← Usize.add size headerSize
  modify headerForAllocated (setSize allocatedSize)
  let next ← takeNext self
  modify headerForAllocated (setNextHeader next)
  return (headerForAllocated, allocatedSize)

/-- The header of the padding in `provide`, where there is a gap behind the allocation, and
`size_used`. -/
def splitPadding (self headerForAllocated sizeUsed : ℕ) : Method Heap ℕ := do
  let allocatedEnd ← endAddr headerForAllocated
  let selfEnd ← endAddr self
  -- aligning the address down has left a gap
  if allocatedEnd ≠ selfEnd then
    let headerForPadding ← newFromAddr allocatedEnd
    modify headerForPadding (setIsAllocated false)
    let paddingSize ← Usize.sub selfEnd allocatedEnd
    modify headerForPadding (setSize paddingSize)
    let sizeUsed ← Usize.add sizeUsed paddingSize
    let next ← takeNext headerForAllocated
    modify headerForPadding (setNextHeader next)
    modify headerForAllocated (setNextHeader headerForPadding)
    return sizeUsed
  else
    return sizeUsed

/-- The end of `provide`: what is left of the block keeps its header. -/
def shrink (self headerForAllocated sizeUsed : ℕ) : Method Heap Unit := do
  let need ← Usize.add sizeUsed headerSize
  if (← get self).size < need then
    throw (.panic "assertion failed: self.size >= size_used + HEADER_SIZE")
  let size ← Usize.sub (← get self).size sizeUsed
  modify self (setSize size)
  modify self (setNextHeader headerForAllocated)

/-- `provide` carves an allocation out of the end of a block, if the block is free and large enough.
-/
def provide (self size align : ℕ) : Method Heap (Option ℕ) := do
  match roundUpToNearestPow2 size with
  -- `.ok()?`: what cannot be rounded up to a power of two is not provided
  | .error _ => return none
  | .ok size =>
    let size := max size headerSize
    let align := max align headerSize
    if (← get self).isAllocated then
      return none
    if !(← canProvide self size align) then
      return none
    -- from the end of the block, in front of which its header stays
    let allocatedAddr := Usize.alignDown (← Usize.sub (← endAddr self) size) align
    let (headerForAllocated, sizeUsed) ← splitAllocated self allocatedAddr size
    let sizeUsed ← splitPadding self headerForAllocated sizeUsed
    shrink self headerForAllocated sizeUsed
    return some allocatedAddr

/-! ## Running the methods -/

/-- Outside the headers at the addresses `as` both memories are the same. -/
def SameOutside (as : List ℕ) (m m' : Memory) : Prop :=
  ∀ x, (∀ a ∈ as, x < a ∨ a + headerSize ≤ x) → m' x = m x

theorem zero_fits : 0 < 2 ^ 64 := by decide

/-- The header of a block fits if its address and size do. -/
theorem ofBlock_fits {next size : ℕ} (hnext : next < 2 ^ 64) (hsize : size < 2 ^ 64)
    (isAllocated : Bool) : (ofBlock next size isAllocated).Fits := ⟨hnext, hsize, zero_fits⟩

/-- A header of a block is read back as it was stored. -/
theorem load_store_ofBlock {next size : ℕ} (hnext : next < 2 ^ 64) (hsize : size < 2 ^ 64)
    (isAllocated : Bool) (m : Memory) (a : ℕ) :
    load (store m a (ofBlock next size isAllocated)) a = ofBlock next size isAllocated :=
  load_store m a (ofBlock_fits hnext hsize isAllocated)

theorem setNextHeader_ofBlock (next next' size : ℕ) (isAllocated : Bool) :
    (ofBlock next size isAllocated).setNextHeader next' = ofBlock next' size isAllocated := rfl

theorem setSize_ofBlock (next size size' : ℕ) (isAllocated : Bool) :
    (ofBlock next size isAllocated).setSize size' = ofBlock next size' isAllocated := rfl

theorem setIsAllocated_ofBlock (next size : ℕ) (isAllocated isAllocated' : Bool) :
    (ofBlock next size isAllocated).setIsAllocated isAllocated' =
      ofBlock next size isAllocated' := rfl

/-- Only the last pointer counts. -/
theorem setNextHeader_setNextHeader (h : Header) (next next' : ℕ) :
    (h.setNextHeader next).setNextHeader next' = h.setNextHeader next' := rfl

theorem setNextHeader_setSize_setNextHeader (h : Header) (next size next' : ℕ) :
    ((h.setNextHeader next).setSize size).setNextHeader next' =
      (h.setSize size).setNextHeader next' := rfl

/-- A header fits with another next header, too. -/
theorem Fits.setNextHeader (hfits : h.Fits) {next : ℕ} (hnext : next < 2 ^ 64) :
    (h.setNextHeader next).Fits := ⟨hnext, hfits.size, hfits.reserved⟩

theorem Fits.setSize (hfits : h.Fits) {size : ℕ} (hsize : size < 2 ^ 64) :
    (h.setSize size).Fits := ⟨hfits.nextHeader, hsize, hfits.reserved⟩

section Run

variable {s : Heap} {self addr own used : ℕ} {α : Type}

/-- A header that is read is loaded from the memory. -/
theorem get_bind (f : Header → Method Heap α) :
    (get self >>= f) s = f (load s.mem self) s := rfl

/-- A header that is changed is stored back. -/
theorem modify_bind (g : Header → Header) (f : Unit → Method Heap α) :
    (modify self g >>= f) s = f () { s with mem := store s.mem self (g (load s.mem self)) } := rfl

/-- A new header is stored as an empty one. -/
theorem newFromAddr_bind (f : ℕ → Method Heap α) :
    (newFromAddr addr >>= f) s =
      f addr { s with mem := store s.mem addr (ofBlock 0 0 false) } := rfl

/-- Taking the next header leaves none behind. -/
theorem takeNext_bind (f : ℕ → Method Heap α) :
    (takeNext self >>= f) s = f (load s.mem self).nextHeader
      { s with mem := store s.mem self ((load s.mem self).setNextHeader 0) } := rfl

/-- The end of a block, where it does not overflow. -/
theorem endAddr_bind (h : self + (load s.mem self).size < 2 ^ 64) (f : ℕ → Method Heap α) :
    (endAddr self >>= f) s = f (self + (load s.mem self).size) s := by
  have hrun : endAddr self s = .ok (self + (load s.mem self).size) s := by
    rw [endAddr, get_bind, Usize.run_add h]
  exact Method.bind_of_ok hrun

/-- The header of the allocation is built and takes over the pointer to the rest of the
chain. -/
theorem splitAllocated_spec {p size : ℕ} (hself : self + headerSize + headerSize ≤ p)
    (hsize : size + headerSize < 2 ^ 64) :
    ∃ m', splitAllocated self p size s =
        .ok (p - headerSize, size + headerSize) { s with mem := m' } ∧
      load m' (p - headerSize) =
        ofBlock (load s.mem self).nextHeader (size + headerSize) true ∧
      load m' self = (load s.mem self).setNextHeader 0 ∧
      SameOutside [self, p - headerSize] s.mem m' := by
  have hfits := load_fits s.mem self
  let next := (load s.mem self).nextHeader
  let m₁ := store s.mem (p - headerSize) (ofBlock 0 (size + headerSize) true)
  let m₂ := store m₁ self ((load s.mem self).setNextHeader 0)
  have hself₁ : ∀ h, load (store s.mem (p - headerSize) h) self = load s.mem self :=
    fun _ => load_store_of_disjoint (by omega)
  have hown₂ : load m₂ (p - headerSize) = ofBlock 0 (size + headerSize) true := by
    rw [load_store_of_disjoint (by omega)]
    exact load_store _ _ (ofBlock_fits zero_fits hsize _)
  -- the stores to the new header up to `set_size` fold into `m₁`, and `take` on the pointer of
  -- `self` gives `m₂`
  refine ⟨store m₂ (p - headerSize) (ofBlock next (size + headerSize) true), ?_, ?_, ?_, ?_⟩
  · have hzero := fun b => load_store_ofBlock zero_fits zero_fits b
    rw [splitAllocated, Usize.sub_bind (by omega)]
    simp only [newFromAddr_bind, modify_bind, hzero, setIsAllocated_ofBlock, store_store]
    rw [Usize.add_bind hsize]
    simp only [modify_bind, takeNext_bind, hzero, setSize_ofBlock, store_store, hself₁]
    rw [hown₂, setNextHeader_ofBlock]
    rfl
  · exact load_store _ _ (ofBlock_fits hfits.nextHeader hsize _)
  · rw [load_store_of_disjoint (by omega)]
    exact load_store _ _ (hfits.setNextHeader zero_fits)
  · intro x hx
    have hx₁ := hx self List.mem_cons_self
    have hx₂ := hx (p - headerSize) (List.mem_cons_of_mem _ List.mem_cons_self)
    calc store m₂ (p - headerSize) (ofBlock next (size + headerSize) true) x
        = m₂ x := store_of_not_mem hx₂
      _ = m₁ x := store_of_not_mem hx₁
      _ = s.mem x := store_of_not_mem hx₂

/-- Where the allocation does not reach to the end of the block, the header of the padding is
built and takes over the pointer to the rest of the chain. -/
theorem splitPadding_spec_gap (s : Heap) (self own used : ℕ) {padding : ℕ}
    (hpadding : padding = own + (load s.mem own).size) (hown : own + headerSize ≤ padding)
    (hgap : padding < self + (load s.mem self).size)
    (hend : self + (load s.mem self).size < 2 ^ 64)
    (hused : used + (self + (load s.mem self).size - padding) < 2 ^ 64) :
    ∃ m', splitPadding self own used s =
        .ok (used + (self + (load s.mem self).size - padding)) { s with mem := m' } ∧
      load m' padding =
        ofBlock (load s.mem own).nextHeader (self + (load s.mem self).size - padding) false ∧
      load m' own = (load s.mem own).setNextHeader padding ∧
      SameOutside [own, padding] s.mem m' := by
  have hfits := load_fits s.mem own
  let size := self + (load s.mem self).size - padding
  have hsize : size < 2 ^ 64 := by omega
  let m₁ := store s.mem padding (ofBlock 0 size false)
  let m₂ := store m₁ own ((load s.mem own).setNextHeader 0)
  let m₃ := store m₂ padding (ofBlock (load s.mem own).nextHeader size false)
  have hown₁ : ∀ h, load (store s.mem padding h) own = load s.mem own :=
    fun _ => load_store_of_disjoint (by omega)
  have hpadding₂ : load m₂ padding = ofBlock 0 size false := by
    rw [load_store_of_disjoint (by omega)]
    exact load_store _ _ (ofBlock_fits zero_fits hsize _)
  have hown₃ : load m₃ own = (load s.mem own).setNextHeader 0 := by
    rw [load_store_of_disjoint (by omega)]
    exact load_store _ _ (hfits.setNextHeader zero_fits)
  -- `own` ends in front of the padding, so no store overwrites the other header
  refine ⟨store m₃ own ((load s.mem own).setNextHeader padding), ?_, ?_, ?_, ?_⟩
  · have hzero := fun b => load_store_ofBlock zero_fits zero_fits b
    rw [splitPadding, endAddr_bind (by omega), endAddr_bind hend, if_pos (by omega), ← hpadding]
    simp only [newFromAddr_bind, modify_bind, hzero, setIsAllocated_ofBlock, store_store]
    rw [Usize.sub_bind (by omega)]
    simp only [modify_bind, hzero, setSize_ofBlock, store_store]
    rw [Usize.add_bind hused]
    simp only [takeNext_bind, modify_bind, hown₁]
    rw [hpadding₂, setNextHeader_ofBlock, hown₃, setNextHeader_setNextHeader]
    rfl
  · rw [load_store_of_disjoint (by omega)]
    exact load_store _ _ (ofBlock_fits hfits.nextHeader hsize _)
  · exact load_store _ _ (hfits.setNextHeader (by omega))
  · intro x hx
    have hx₁ := hx own List.mem_cons_self
    have hx₂ := hx padding (List.mem_cons_of_mem _ List.mem_cons_self)
    calc store m₃ own ((load s.mem own).setNextHeader padding) x
        = m₃ x := store_of_not_mem hx₁
      _ = m₂ x := store_of_not_mem hx₂
      _ = m₁ x := store_of_not_mem hx₁
      _ = s.mem x := store_of_not_mem hx₂

/-- Where the allocation reaches to the end of the block, nothing is done. -/
theorem splitPadding_spec_none (s : Heap) (self own used : ℕ)
    (hend : self + (load s.mem self).size < 2 ^ 64)
    (hsame : own + (load s.mem own).size = self + (load s.mem self).size) :
    splitPadding self own used s = .ok used s := by
  rw [splitPadding, endAddr_bind (by omega), endAddr_bind hend, if_neg (by omega)]
  rfl

/-- What is left behind the allocation is added to `size_used`, and has a header if there is
anything left. -/
theorem splitPadding_spec (s : Heap) (self own used : ℕ) {padding pad : ℕ}
    (hpadding : padding = own + (load s.mem own).size) (hown : own + headerSize ≤ padding)
    (hpad : padding + pad = self + (load s.mem self).size)
    (hend : self + (load s.mem self).size < 2 ^ 64) (hused : used + pad < 2 ^ 64) :
    ∃ m', splitPadding self own used s = .ok (used + pad) { s with mem := m' } ∧
      load m' own = (load s.mem own).setNextHeader
        (if pad = 0 then (load s.mem own).nextHeader else padding) ∧
      (pad ≠ 0 → load m' padding = ofBlock (load s.mem own).nextHeader pad false) ∧
      SameOutside (own :: if pad = 0 then [] else [padding]) s.mem m' := by
  by_cases hzero : pad = 0
  · subst hzero
    refine ⟨s.mem, splitPadding_spec_none s self own used hend (by omega), rfl,
      fun hne => absurd rfl hne, fun _ _ => rfl⟩
  · have hdiff : self + (load s.mem self).size - padding = pad := by omega
    obtain ⟨m', hrun, hgap, hown', hsame⟩ :=
      splitPadding_spec_gap s self own used hpadding hown (by omega) hend (by omega)
    rw [hdiff] at hrun hgap
    rw [if_neg hzero, if_neg hzero]
    exact ⟨m', hrun, hown', fun _ => hgap, hsame⟩

/-- What is left of the block is cut off and points to the allocation. -/
theorem shrink_spec (s : Heap) (self own used : ℕ)
    (hused : used + headerSize ≤ (load s.mem self).size) :
    shrink self own used s = .ok ()
      { s with
        mem := store s.mem self
          (((load s.mem self).setSize ((load s.mem self).size - used)).setNextHeader own) } := by
  have hfits := load_fits s.mem self
  have hlt := hfits.size
  have hnot : ¬(load s.mem self).size < used + headerSize := by omega
  have hcut : ((load s.mem self).setSize ((load s.mem self).size - used)).Fits :=
    hfits.setSize (by omega)
  -- the assertion holds, and the second store to the header overwrites the first
  rw [shrink, Usize.add_bind (by omega), get_bind, if_neg hnot]
  show (get self >>= _) s = _
  rw [get_bind, Usize.sub_bind (by omega)]
  simp only [modify_bind, modify, load_store _ _ hcut, store_store]

/-- Without a need for memory, or on an allocated or too small block, there is nothing to
provide. -/
theorem provide_none {size align r : ℕ} (hround : roundUpToNearestPow2 size = .ok r)
    (hneed : max r headerSize + headerSize * 2 + max align headerSize < 2 ^ 64)
    (hno : (load s.mem self).isAllocated = true ∨
      (load s.mem self).size < max r headerSize + headerSize * 2 + max align headerSize) :
    provide self size align s = .ok none s := by
  rw [provide, hround]
  dsimp only
  rw [get_bind]
  by_cases hallocated : (load s.mem self).isAllocated = true
  · rw [if_pos hallocated]
    rfl
  · have hsmall := hno.resolve_left hallocated
    have hcan : canProvide self (max r headerSize) (max align headerSize) s = .ok false s := by
      rw [canProvide, Usize.add_bind (by omega), Usize.add_bind hneed, get_bind]
      simp [hsmall]
    rw [if_neg hallocated]
    exact Method.bind_of_ok hcan

/-- A free block that is large enough provides an allocation as far back as the alignment
permits. The block keeps its header, the allocation gets one, and what is left behind the
allocation gets one. -/
theorem provide_spec {size align r k need pad p : ℕ}
    (hround : roundUpToNearestPow2 size = .ok r) (hneed : need = max r headerSize)
    (halign : max align headerSize = 2 ^ k) (hk : k < 64)
    (hfree : (load s.mem self).isAllocated = false)
    (hfit : need + headerSize * 2 + 2 ^ k ≤ (load s.mem self).size)
    (hend : self + (load s.mem self).size < 2 ^ 64)
    (hpad : pad = (self + (load s.mem self).size - need) % 2 ^ k)
    (hp : p = self + (load s.mem self).size - need - pad) :
    ∃ m', provide self size align s = .ok (some p) { s with mem := m' } ∧
      load m' self = ((load s.mem self).setSize (p - headerSize - self)).setNextHeader
        (p - headerSize) ∧
      load m' (p - headerSize) = ofBlock
        (if pad = 0 then (load s.mem self).nextHeader else p + need) (need + headerSize) true ∧
      (pad ≠ 0 → load m' (p + need) = ofBlock (load s.mem self).nextHeader pad false) ∧
      SameOutside ([self, p - headerSize] ++ if pad = 0 then [] else [p + need]) s.mem m' := by
  have hmod : pad < 2 ^ k := hpad ▸ Nat.mod_lt _ (Nat.two_pow_pos k)
  have hcan : canProvide self need (2 ^ k) s = .ok true s := by
    rw [canProvide, Usize.add_bind (by omega), Usize.add_bind (by omega), get_bind]
    simp [hfit]
  have hdown : Usize.alignDown (self + (load s.mem self).size - need) (2 ^ k) = p := by
    rw [Usize.alignDown_eq (by omega) hk, ← hpad, hp]
  obtain ⟨m₁, hsplit, hown₁, hself₁, hsame₁⟩ :=
    splitAllocated_spec (s := s) (by omega : self + headerSize + headerSize ≤ p)
      (by omega : need + headerSize < 2 ^ 64)
  -- what the code reads of the two headers behind the first part
  have hownSize : (load m₁ (p - headerSize)).size = need + headerSize := by
    rw [hown₁]
    rfl
  have hselfSize : (load m₁ self).size = (load s.mem self).size := by
    rw [hself₁]
    rfl
  -- up to the header of the padding both cases run alike
  have hrun : provide self size align s =
      (splitPadding self (p - headerSize) (need + headerSize) >>= fun used =>
        shrink self (p - headerSize) used >>= fun _ => pure (some p)) { s with mem := m₁ } := by
    rw [provide, hround]
    dsimp only
    rw [← hneed, halign, get_bind, if_neg (by simp [hfree]), Method.bind_of_ok hcan,
      if_neg (by decide), endAddr_bind hend, Usize.sub_bind (by omega), hdown,
      Method.bind_of_ok hsplit]
  obtain ⟨m₂, hpadding, hown₂, hgap₂, hsame₂⟩ :=
    splitPadding_spec { s with mem := m₁ } self (p - headerSize) (need + headerSize)
      (by rw [hownSize]; omega : p + need = _) (by omega) (by rw [hselfSize]; omega : _ + pad = _)
      (by rw [hselfSize]; exact hend) (by omega)
  -- the header of the block lies in front of the headers that were written
  have hself₂ : load m₂ self = (load s.mem self).setNextHeader 0 := by
    refine (load_congr fun x hlo hhi => ?_).trans hself₁
    refine hsame₂ x fun a ha => ?_
    rcases List.mem_cons.1 ha with rfl | ha
    · omega
    · rw [List.mem_ite_nil_left] at ha
      obtain rfl := List.mem_singleton.1 ha.2
      omega
  have hsize₂ : (load m₂ self).size = (load s.mem self).size := by
    rw [hself₂]
    rfl
  have hshrink := shrink_spec { s with mem := m₂ } self (p - headerSize)
    (need + headerSize + pad) (by rw [hsize₂]; omega)
  rw [hsize₂, hself₂, setNextHeader_setSize_setNextHeader,
    show (load s.mem self).size - (need + headerSize + pad) =
      p - headerSize - self by omega] at hshrink
  let rest := ((load s.mem self).setSize (p - headerSize - self)).setNextHeader (p - headerSize)
  have hrest : rest.Fits := by
    have hfits := load_fits s.mem self
    exact (hfits.setSize (by omega)).setNextHeader (by omega)
  refine ⟨store m₂ self rest, ?_, load_store _ _ hrest, ?_, fun hne => ?_, ?_⟩
  · rw [hrun, Method.bind_of_ok hpadding, Method.bind_of_ok hshrink]
    rfl
  · rw [load_store_of_disjoint (by omega), hown₂, hown₁]
    rfl
  · rw [load_store_of_disjoint (by omega), hgap₂ hne, hown₁]
    rfl
  · intro x hx
    have hx₀ := hx self List.mem_cons_self
    have hx₁ := hx (p - headerSize) (by simp)
    calc store m₂ self rest x
        = m₂ x := store_of_not_mem hx₀
      _ = m₁ x := hsame₂ x fun a ha => hx a (List.mem_cons_of_mem self ha)
      _ = s.mem x := hsame₁ x (by simpa using ⟨hx₀, hx₁⟩)

end Run

end Header

/-- There are as many significant bits in `v - 1` as the exponent of the next power of two. -/
theorem sub_leadingZeros {v : ℕ} (hpos : 0 < v) (hlt : v < 2 ^ 64) :
    64 - (BitVec.ofNat 64 v - 1#64).clz.toNat = Nat.clog 2 v := by
  let x : BitVec 64 := BitVec.ofNat 64 v - 1#64
  have hx : x.toNat = v - 1 := by
    have hle : 1#64 ≤ BitVec.ofNat 64 v := by
      rw [BitVec.le_def, BitVec.toNat_ofNat, BitVec.toNat_ofNat, Nat.mod_eq_of_lt hlt]
      exact hpos
    rw [BitVec.toNat_sub_of_le hle, BitVec.toNat_ofNat, Nat.mod_eq_of_lt hlt]
    rfl
  -- `clz` bounds `v - 1` by powers of two from both sides
  apply Nat.le_antisymm
  · by_cases hzero : x = 0#64
    · have hclz : x.clz = 64 := BitVec.clz_eq_iff_eq_zero.2 hzero
      show 64 - x.clz.toNat ≤ _
      rw [hclz]
      exact Nat.zero_le _
    · have hlower : 2 ^ (64 - 1 - x.clz.toNat) ≤ x.toNat :=
        BitVec.two_pow_sub_clz_le_toNat_of_ne_zero (by decide) hzero
      have hlog : 64 - 1 - x.clz.toNat < Nat.clog 2 v :=
        (Nat.lt_clog_iff_pow_lt (by decide)).2 (by omega)
      show 64 - x.clz.toNat ≤ _
      omega
  · have hupper : x.toNat < 2 ^ (64 - x.clz.toNat) := BitVec.toNat_lt_two_pow_sub_clz
    refine Nat.clog_le_of_le_pow ?_
    show v ≤ 2 ^ (64 - x.clz.toNat)
    omega

/-- `round_up_to_nearest_pow2` returns the next power of two. -/
theorem roundUpToNearestPow2_eq {v : ℕ} (hpos : 0 < v) (hle : v ≤ 2 ^ 63) :
    roundUpToNearestPow2 v = .ok (2 ^ Nat.clog 2 v) := by
  have hlog : Nat.clog 2 v < 64 := Nat.lt_succ_of_le (Nat.clog_le_of_le_pow hle)
  have hlt : 2 ^ Nat.clog 2 v < 2 ^ 64 := Nat.pow_lt_pow_right (by decide) hlog
  have hle64 : (2 : ℕ) ^ 63 < 2 ^ 64 := by decide
  rw [roundUpToNearestPow2, sub_leadingZeros hpos (hle.trans_lt hle64), if_pos hlog,
    BitVec.toNat_shiftLeft, Nat.shiftLeft_eq, BitVec.toNat_ofNat,
    Nat.mod_eq_of_lt (by decide : 1 < 2 ^ 64), one_mul, Nat.mod_eq_of_lt hlt]

/-- For the size 0 there is no power of two to return. -/
theorem roundUpToNearestPow2_zero : roundUpToNearestPow2 0 = .error "Out of range" := by decide

end Mushix
