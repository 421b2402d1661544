import Mushix.Allocator.Clients
import Mushix.Lib.Packed

/-!
# Boxes and vectors

The owners of allocations that the program uses: a boxed slice is a block of the allocator of
exactly its size, and a vector is moved to a larger block when it is full.

* `boxNew`: `Box::new`, for a packed structure or an array of bytes;
* `BoxedSlice.ofSlice`: `Box::<[T]>::from(&[T])`;
* `BoxVec.push`: `Vec::push` for a vector of boxed slices;
* `BoxVec.Holds`: which allocations a vector owns.

The blocks that these calls leave are computed by `copyTake` and `BoxVec.pushTake`.
-/

namespace Mushix

open Method (ofOption)
open HeapSystem (Owns Same)

/-! ## Boxed values -/

/-- The layout of a type with alignment 1. -/
def Layout.packed (size : ℕ) (h : size < 2 ^ 63) : Layout :=
  { size, align := 1, isPowerOfTwo := ⟨0, rfl⟩, fits := h }

/-- `Box::new(value)`, for a value with these bytes. -/
def boxNew (layout : Layout) (bytes : List (BitVec 8)) : Method HeapSystem ℕ := do
  let ptr ← HeapSystem.allocateOr "memory allocation failed" layout
  modify fun s => s.setMem (Packed.store s.heap.mem ptr bytes)
  return ptr

/-- Bytes inside an allocation that stays as it is. -/
theorem HeapSystem.Same.stores {seed : Seeding} {as : List Allocation} {a : Allocation}
    {s s' : HeapSystem} {bytes : List (BitVec 8)} (h : Same seed as s s') (ha : a ∈ as)
    (hle : bytes.length ≤ a.layout.size)
    (hbytes : Packed.Stores s.heap.mem a.ptr bytes) : Packed.Stores s'.heap.mem a.ptr bytes :=
  hbytes.congr fun x hlo hhi => (h.bytes a ha x ⟨hlo, by show x < a.ptr + _; omega⟩).symm

/-- A boxed value has an allocation of its own, which is aligned and contains it. -/
theorem boxNew_follows {seed : Seeding} {bs : List Block} {as : List Allocation} {s : HeapSystem}
    {bytes : List (BitVec 8)} (h : Owns seed bs as s) (layout : Layout) (hpos : 0 < layout.size)
    (hlen : bytes.length ≤ layout.size) :
    Method.Follows (layout.take bs)
      (fun r p s' => p % 32 = 0 ∧ p % layout.align = 0 ∧ Packed.Stores s'.heap.mem p bytes ∧
        Owns seed r.2 (⟨p, layout⟩ :: as) s' ∧ Same seed as s s')
      (boxNew layout bytes) s := by
  refine (h.allocateOr hpos "memory allocation failed").bind_returns ?_
  rintro r p s₁ ⟨rfl, -, -, howns, hsame⟩
  -- the value is written inside of the new allocation only
  have hout : ∀ x, x ∉ (Allocation.mk (r.1.place layout.demand) layout).bytes →
      Packed.store s₁.heap.mem (r.1.place layout.demand) bytes x = s₁.heap.mem x := by
    intro x hx
    apply Packed.store_of_not_mem
    by_contra hin
    refine hx ⟨?_, ?_⟩
    · show r.1.place layout.demand ≤ x
      omega
    · show x < r.1.place layout.demand + layout.size
      omega
  obtain ⟨howns', hsame'⟩ := howns.write hout
  have hplace := Block.place_mod r.1 layout.demand
  refine ⟨_, _, rfl, ?_, layout.mod_align hplace, Packed.stores_store _ _ bytes, howns', ?_⟩
  · exact Nat.mod_eq_zero_of_dvd (layout.demand.dvd_align.trans (Nat.dvd_of_mod_eq_zero hplace))
  · exact hsame.trans (hsame'.subset fun _ ha => ha)

/-! ## Boxed slices -/

/-- `Box<[T]>`: a pointer and the number of elements. -/
structure BoxedSlice where
  ptr : ℕ
  len : ℕ
  deriving DecidableEq, Repr

/-- `Box::<[T]>::from(&[T])` for a slice that is not empty, with elements of this size and
alignment: a new block with a copy of its bytes. -/
def BoxedSlice.ofSlice (size align src len : ℕ) : Method HeapSystem BoxedSlice := do
  let layout ← ofOption (.panic "capacity overflow") (Layout.array size align len)
  let ptr ← HeapSystem.allocateOr "memory allocation failed" layout
  HeapSystem.copyBytes src ptr layout.size
  return { ptr, len }

/-- The block that a boxed slice is taken from, and the blocks afterwards. -/
def copyTake (size align len : ℕ) (bs : List Block) : Option (Block × List Block) := do
  let layout ← Layout.array size align len
  layout.take bs

variable {seed : Seeding} {bs : List Block} {as vs : List Allocation} {s : HeapSystem}

/-- A boxed slice owns an allocation of its own. -/
theorem BoxedSlice.ofSlice_follows (h : Owns seed bs as s) {size align len : ℕ}
    (hpos : 0 < size * len) (src : ℕ) :
    Method.Follows (copyTake size align len bs)
      (fun r box s' => ∃ layout, Layout.array size align len = some layout ∧ box.len = len ∧
        box.ptr = r.1.place layout.demand ∧ r.1.Granular ∧ r.1.Serves layout.demand ∧
        Owns seed r.2 (⟨box.ptr, layout⟩ :: as) s' ∧ Same seed as s s')
      (ofSlice size align src len) s := by
  refine (Method.Follows.ofOption _ _ s).bind ?_
  rintro layout _ _ ⟨hlayout, rfl, rfl⟩
  have hsize := (Layout.fromSizeAlign_eq_some hlayout).1
  have hpos' : 0 < layout.size := by rwa [hsize]
  refine (h.allocateOr hpos' "memory allocation failed").bind_returns ?_
  rintro r p s₁ ⟨rfl, hgranular, hserves, howns, hsame⟩
  refine Method.Returns.bind (howns.copyBytes src ⟨le_rfl, le_rfl⟩) ?_
  rintro - s₂ ⟨howns', hsame'⟩
  refine Method.Returns.pure ⟨layout, hlayout, rfl, rfl, hgranular, hserves, howns', ?_⟩
  exact hsame.trans (hsame'.subset fun _ ha => ha)

/-! ## Vectors -/

/-- `Vec<Box<[T]>>`: a pointer, the number of elements that there is room for, and the number of
elements. An element is the pointer and the length of a boxed slice. -/
structure BoxVec where
  ptr : ℕ
  cap : ℕ
  len : ℕ
  deriving DecidableEq, Repr

/-- The next capacity of a vector that is full, which Rust does not specify. -/
structure VecGrowth where
  next : ℕ → ℕ
  lt_next : ∀ cap, cap < next cap

/-- The capacities of `RawVec`: twice the last one, and at least four. -/
def VecGrowth.double : VecGrowth where
  next cap := max (2 * cap) 4
  lt_next cap := by omega

namespace BoxVec

/-- A vector without elements, which has no block yet. -/
def new : BoxVec := { ptr := 8, cap := 0, len := 0 }

/-- A vector that is full gets a larger block, and frees the one that it had. -/
def grow (growth : VecGrowth) (self : BoxVec) : Method HeapSystem BoxVec := do
  let cap := growth.next self.cap
  let layout ← ofOption (.panic "capacity overflow") (Layout.array 16 8 cap)
  let ptr ← HeapSystem.allocateOr "memory allocation failed" layout
  if self.cap = 0 then
    return { self with ptr, cap }
  else
    -- `GlobalAlloc::realloc`
    HeapSystem.copyBytes self.ptr ptr (16 * self.cap)
    HeapSystem.deallocate self.ptr
    return { self with ptr, cap }

/-- Make room for one more element. -/
def reserve (growth : VecGrowth) (self : BoxVec) : Method HeapSystem BoxVec :=
  if self.len = self.cap then self.grow growth else return self

/-- `push` writes an element behind the last one, for which it may have to make room. -/
def push (growth : VecGrowth) (self : BoxVec) (value : BoxedSlice) :
    Method HeapSystem BoxVec := do
  let self ← self.reserve growth
  HeapSystem.storeWord (self.ptr + 16 * self.len) value.ptr
  HeapSystem.storeWord (self.ptr + 16 * self.len + 8) value.len
  return { self with len := self.len + 1 }

/-- The vector after `grow`, and the blocks. -/
def growTake (growth : VecGrowth) (self : BoxVec) (bs : List Block) :
    Option (BoxVec × List Block) := do
  let cap := growth.next self.cap
  let layout ← Layout.array 16 8 cap
  let (b, bs) ← layout.take bs
  let ptr := b.place layout.demand
  return ({ self with ptr, cap }, if self.cap = 0 then bs else freeAt self.ptr bs)

/-- The vector after `reserve`, and the blocks. -/
def reserveTake (growth : VecGrowth) (self : BoxVec) (bs : List Block) :
    Option (BoxVec × List Block) :=
  if self.len = self.cap then self.growTake growth bs else return (self, bs)

/-- The vector after `push`, and the blocks. -/
def pushTake (growth : VecGrowth) (self : BoxVec) (bs : List Block) :
    Option (BoxVec × List Block) := do
  let (self, bs) ← self.reserveTake growth bs
  return ({ self with len := self.len + 1 }, bs)

/-- A vector owns one allocation, or none before the first element. -/
inductive Holds (self : BoxVec) : List Allocation → Prop where
  | empty (hcap : self.cap = 0) : Holds self []
  | block {layout : Layout} (hlayout : Layout.array 16 8 self.cap = some layout)
      (hcap : 0 < self.cap) : Holds self [⟨self.ptr, layout⟩]

variable {self : BoxVec} {growth : VecGrowth}

/-- A vector that grows owns its new block, and the old one is free. -/
theorem grow_follows (hself : self.Holds vs) (h : Owns seed bs (vs ++ as) s) :
    Method.Follows (self.growTake growth bs)
      (fun r v s' => v = r.1 ∧ v.len = self.len ∧ self.cap < v.cap ∧
        ∃ a, v.Holds [a] ∧ Owns seed r.2 (a :: as) s' ∧ Same seed as s s')
      (self.grow growth) s := by
  refine (Method.Follows.ofOption _ _ s).bind ?_
  rintro layout _ _ ⟨hlayout, rfl, rfl⟩
  have hlt := growth.lt_next self.cap
  have hsize := (Layout.fromSizeAlign_eq_some hlayout).1
  have hpos : 0 < layout.size := by omega
  refine (h.allocateOr hpos "memory allocation failed").bind ?_
  rintro ⟨b, bs'⟩ p s₁ ⟨rfl, -, -, howns, hsame⟩
  have hnew : ({ self with ptr := b.place layout.demand, cap := growth.next self.cap } :
      BoxVec).Holds [⟨b.place layout.demand, layout⟩] := .block hlayout (Nat.zero_lt_of_lt hlt)
  cases hself with
  | empty hcap =>
    rw [if_pos hcap]
    refine Method.Returns.pure ⟨rfl, rfl, hlt, _, hnew, ?_, hsame⟩
    rwa [if_pos hcap]
  | @block old hold hcap =>
    have hold' := (Layout.fromSizeAlign_eq_some hold).1
    rw [if_neg hcap.ne']
    have hle : b.place layout.demand + 16 * self.cap ≤ b.place layout.demand + layout.size := by
      omega
    refine Method.Returns.bind (howns.copyBytes self.ptr ⟨le_rfl, hle⟩) ?_
    rintro - s₂ ⟨howns₂, hsame₂⟩
    -- the old block is the one that is freed
    have hswap : Owns seed bs' (⟨self.ptr, old⟩ :: ⟨b.place layout.demand, layout⟩ :: as) s₂ :=
      howns₂.perm (List.Perm.swap ..)
    refine hswap.deallocate.bind ?_
    rintro - s₃ ⟨howns₃, hsame₃⟩
    refine Method.Returns.pure ⟨rfl, rfl, hlt, _, hnew, ?_, ?_⟩
    · rwa [if_neg hcap.ne']
    · exact ((hsame.trans hsame₂).subset (by simp)).trans (hsame₃.subset (by simp))

/-- A vector with room for one more element owns a block. -/
theorem reserve_follows (hself : self.Holds vs) (hlen : self.len ≤ self.cap)
    (h : Owns seed bs (vs ++ as) s) :
    Method.Follows (self.reserveTake growth bs)
      (fun r v s' => v = r.1 ∧ v.len = self.len ∧ v.len < v.cap ∧
        ∃ a, v.Holds [a] ∧ Owns seed r.2 (a :: as) s' ∧ Same seed as s s')
      (self.reserve growth) s := by
  rw [reserveTake, reserve]
  split_ifs with hfull
  · refine (grow_follows hself h).imp ?_
    rintro r v s' ⟨hv, hlen', hlt, howns⟩
    exact ⟨hv, hlen', by omega, howns⟩
  · cases hself with
    | empty hcap => omega
    | @block layout hlayout hcap =>
      refine Method.Returns.pure ⟨rfl, rfl, by omega, _, .block hlayout hcap, h, ?_⟩
      exact .refl seed as s

/-- A push keeps what the vector does not own. -/
theorem push_follows (growth : VecGrowth) (hself : self.Holds vs) (hlen : self.len ≤ self.cap)
    (h : Owns seed bs (vs ++ as) s) (value : BoxedSlice) :
    Method.Follows (self.pushTake growth bs)
      (fun r v s' => v = r.1 ∧ v.len = self.len + 1 ∧ v.len ≤ v.cap ∧
        ∃ a, v.Holds [a] ∧ Owns seed r.2 (a :: as) s' ∧ Same seed as s s')
      (self.push growth value) s := by
  refine (reserve_follows hself hlen h).bind ?_
  rintro ⟨v', bs'⟩ v s₁ ⟨rfl, hlen', hlt, a, hv, howns, hsame⟩
  -- both words of the new element are inside the block
  have hbytes : a.bytes = ⟨v.ptr, v.ptr + 16 * v.cap⟩ := by
    cases hv with
    | @block layout hlayout hcap =>
      show Span.mk v.ptr (v.ptr + layout.size) = _
      rw [(Layout.fromSizeAlign_eq_some hlayout).1]
  have hword : ∀ i, i + 8 ≤ 16 →
      (⟨v.ptr + 16 * v.len + i, v.ptr + 16 * v.len + i + 8⟩ : Span).Within a.bytes := by
    intro i hi
    rw [hbytes, Span.Within]
    dsimp only
    omega
  refine Method.Returns.bind (howns.storeWord value.ptr (hword 0 (by decide))) ?_
  rintro - s₂ ⟨-, howns₂, hsame₂⟩
  refine Method.Returns.bind (howns₂.storeWord value.len (hword 8 le_rfl)) ?_
  rintro - s₃ ⟨-, howns₃, hsame₃⟩
  refine Method.Returns.pure ⟨rfl, congrArg (· + 1) hlen', hlt, a, ?_, howns₃, ?_⟩
  · cases hv with
    | block hlayout hcap => exact .block hlayout hcap
  · exact (hsame.trans hsame₂).trans hsame₃

end BoxVec

end Mushix
