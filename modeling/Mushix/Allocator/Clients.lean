import Mushix.Allocator.HeapSystem
import Mushix.Safe

/-!
# Clients of the allocator

A client of the allocator owns a list of live allocations. It may allocate, and deallocate or
write to what it owns; the other clients are in the same state of `HeapSystem`.

* `HeapSystem.allocate`, `HeapSystem.deallocate`: the calls of the allocator in Rust;
* `Layout.take`, `freeAt`: what they do to the blocks of the heap;
* `HeapSystem.Owns`: the heap consists of certain blocks, and a client owns certain allocations.
  Its rules say what every call leaves of them.
-/

namespace Mushix

open Bytes (Memory writeLE)
open FirstFitAllocator (allocWithOptions)

namespace Layout

/-- The layout with this size and alignment, if Rust allows it. -/
def fromSizeAlign (size align : ℕ) : Option Layout :=
  if h : align.isPowerOfTwo ∧ size + align ≤ 2 ^ 63 then
    some { size, align, isPowerOfTwo := h.1, fits := h.2 }
  else
    none

/-- `Layout::array::<T>(len)`, where `T` has this size and alignment. -/
def array (size align len : ℕ) : Option Layout := fromSizeAlign (size * len) align

/-- The first block that serves the layout, and the blocks after the allocation. -/
def take (layout : Layout) : List Block → Option (Block × List Block)
  | [] => none
  | b :: bs =>
    if b.Serves layout.demand then some (b, b.carve layout.demand ++ bs)
    else (take layout bs).map fun (c, cs) => (c, b :: cs)

variable {layout : Layout} {size align len : ℕ} {b : Block} {bs bs' : List Block}

/-- A layout has the size and the alignment it was made of. -/
theorem fromSizeAlign_eq_some (h : fromSizeAlign size align = some layout) :
    layout.size = size ∧ layout.align = align := by
  rw [fromSizeAlign] at h
  split at h
  · cases h
    exact ⟨rfl, rfl⟩
  · cases h

/-- A power of two and a size that fits make a layout. -/
theorem exists_fromSizeAlign (halign : align.isPowerOfTwo) (hfits : size + align ≤ 2 ^ 63) :
    ∃ layout, fromSizeAlign size align = some layout :=
  ⟨_, dif_pos ⟨halign, hfits⟩⟩

/-- A layout that is aligned no more than a header is allocated at the very end of its block. -/
theorem place_add_need (hb : b.Granular) (h : b.Serves layout.demand) (halign : layout.align ≤ 32) :
    b.place layout.demand + layout.demand.need = b.addr + b.size := by
  have hshift : layout.demand.shift = 5 := by
    have hlog : Nat.log 2 layout.align ≤ Nat.log 2 32 := Nat.log_mono_right halign
    exact Nat.max_eq_right hlog
  have hpadding : b.padding layout.demand = 0 := by
    have hlt : b.padding layout.demand < 2 ^ layout.demand.shift := Nat.mod_lt _ (Nat.two_pow_pos _)
    rw [hshift] at hlt
    exact Nat.eq_zero_of_dvd_of_lt (hb.dvd_padding _) hlt
  have hsum := h.place_bounds.2
  omega

/-- An allocation takes a block exactly when first fit finds one. -/
theorem map_take (layout : Layout) (bs : List Block) :
    (layout.take bs).map (fun r => (r.1.place layout.demand, r.2)) =
      firstFit layout.demand bs := by
  induction bs with
  | nil => rfl
  | cons b bs ih =>
    rw [take, firstFit, ← ih]
    split
    · rfl
    · simp [Function.comp_def]

/-- If nothing is taken, no block serves the layout. -/
theorem take_eq_none (h : layout.take bs = none) : ∀ b ∈ bs, ¬b.Serves layout.demand := by
  rw [← firstFit_eq_none, ← map_take, h]
  rfl

/-- The block that is taken has only blocks before it that do not serve the layout. -/
theorem take_eq_some (h : layout.take bs = some (b, bs')) :
    ∃ pre post, bs = pre ++ b :: post ∧ (∀ c ∈ pre, ¬c.Serves layout.demand) ∧
      b.Serves layout.demand ∧ bs' = pre ++ (b.carve layout.demand ++ post) := by
  induction bs generalizing bs' with
  | nil => cases h
  | cons c bs ih =>
    rw [take] at h
    split at h
    case isTrue hc =>
      cases h
      exact ⟨[], bs, rfl, by simp, hc, rfl⟩
    case isFalse hc =>
      obtain ⟨⟨d, ds⟩, hrest, heq⟩ := Option.map_eq_some_iff.1 h
      cases heq
      obtain ⟨pre, post, rfl, hpre, hd, rfl⟩ := ih hrest
      refine ⟨c :: pre, post, rfl, ?_, hd, rfl⟩
      intro e he
      rcases List.mem_cons.1 he with rfl | he
      · exact hc
      · exact hpre e he

/-- There is a free block with this many bytes, and with those that `Serves` asks for beyond the
demand. -/
def HasRoom (n : ℕ) (bs : List Block) : Prop :=
  ∃ b ∈ bs, b.isAllocated = false ∧ b.Granular ∧ n + 64 ≤ b.size

/-- An allocation of at most `2 ^ k` bytes costs these and a header of the room. -/
theorem take_of_room (layout : Layout) {n : ℕ} (k : ℕ) (halign : layout.align ≤ 32)
    (hsize : layout.size ≤ 2 ^ k) (hk : 5 ≤ k) (h : HasRoom (n + (2 ^ k + 32)) bs) :
    ∃ r, layout.take bs = some r ∧ HasRoom n r.2 := by
  obtain ⟨c, hc, hfree, hgranular, hroom⟩ := h
  have hneed : layout.demand.need ≤ 2 ^ k := by
    rw [layout.demand_need]
    refine Nat.max_le.2 ⟨Nat.pow_le_pow_right (by decide) (Nat.clog_le_of_le_pow hsize), ?_⟩
    exact Nat.pow_le_pow_right (n := 2) (by decide) hk
  have hshift : 2 ^ layout.demand.shift = 32 := by
    rw [← layout.demand_align]
    exact Nat.max_eq_right halign
  have hhead : headerSize = 32 := rfl
  have hserves : c.Serves layout.demand := by
    refine ⟨hfree, ?_⟩
    rw [hshift, hhead]
    omega
  cases htake : layout.take bs with
  | none => exact absurd hserves (take_eq_none htake c hc)
  | some r =>
    obtain ⟨b, bs'⟩ := r
    refine ⟨(b, bs'), rfl, ?_⟩
    obtain ⟨pre, post, rfl, -, hb, rfl⟩ := take_eq_some htake
    -- the block is still there, or it is the one that was carved
    by_cases hcb : c = b
    · subst hcb
      have hend := place_add_need hgranular hb halign
      have hmem : c.rest layout.demand ∈ c.carve layout.demand := List.mem_cons_self
      refine ⟨c.rest layout.demand, by simp [hmem], hfree, hgranular.carve hb _ hmem, ?_⟩
      show n + 64 ≤ c.place layout.demand - headerSize - c.addr
      omega
    · refine ⟨c, ?_, hfree, hgranular, by omega⟩
      have hother : c ∈ pre ∨ c ∈ post := by simpa [hcb] using hc
      rcases hother with hother | hother <;> simp [hother]

end Layout

/-- The blocks after the deallocation of a pointer. -/
def freeAt (ptr : ℕ) : List Block → List Block
  | [] => []
  | b :: bs => if b.addr + headerSize = ptr then b.freed :: bs else b :: freeAt ptr bs

/-- The block whose memory is given back becomes free. -/
theorem freeAt_append {b : Block} {pre post : List Block} (hpre : ∀ c ∈ pre, c.addr ≠ b.addr) :
    freeAt (b.addr + headerSize) (pre ++ b :: post) = pre ++ ([b.freed] ++ post) := by
  induction pre with
  | nil => simp [freeAt]
  | cons c pre ih =>
    have hc := hpre c List.mem_cons_self
    have hrest := ih fun d hd => hpre d (List.mem_cons_of_mem c hd)
    simp [freeAt, hc, hrest]

namespace HeapSystem

/-! ## The calls -/

/-- A call of `alloc_with_options`, after which the new allocation is live. -/
def allocate (layout : Layout) : Method HeapSystem ℕ := fun s =>
  match allocWithOptions layout s.heap with
  | .ok p _ => .ok p (step (.alloc layout) s)
  | .error e _ => .error e (step (.alloc layout) s)

/-- An allocation whose caller panics on the null pointer. -/
def allocateOr (msg : String) (layout : Layout) : Method HeapSystem ℕ := do
  let p ← allocate layout
  if p = 0 then
    throw (.panic msg)
  else
    return p

/-- A call of `dealloc`, after which the allocation is no longer live. -/
def deallocate (ptr : ℕ) : Method HeapSystem Unit := fun s =>
  match FirstFitAllocator.dealloc ptr s.heap with
  | .ok _ _ => .ok () (step (.dealloc ptr) s)
  | .error e _ => .error e (step (.dealloc ptr) s)

/-- The state with another content of the memory. -/
def setMem (s : HeapSystem) (mem : Memory) : HeapSystem := { s with heap := { s.heap with mem } }

/-- `copy_nonoverlapping` copies `n` bytes from `src` to `dst`. -/
def copyBytes (src dst n : ℕ) : Method HeapSystem PUnit :=
  modify fun s => s.setMem fun x =>
    if dst ≤ x ∧ x < dst + n then s.heap.mem (src + (x - dst)) else s.heap.mem x

/-- A store of a `usize` through a pointer. -/
def storeWord (ptr value : ℕ) : Method HeapSystem PUnit :=
  modify fun s => s.setMem (writeLE s.heap.mem ptr 8 value)

/-! ## Ownership -/

/-- The heap consists of the blocks, and the allocations are live. -/
structure Owns (seed : Seeding) (bs : List Block) (as : List Allocation) (s : HeapSystem) :
    Prop where
  sound : ∃ pool : Pool seed, pool.blocks = bs ∧ Sound pool s
  live : ∀ a ∈ as, a ∈ s.live
  distinct : as.Pairwise fun a a' => a.ptr ≠ a'.ptr

/-- The bytes of the allocations stay as they are, and so does what lies outside of the heap. -/
structure Same (seed : Seeding) (as : List Allocation) (s s' : HeapSystem) : Prop where
  bytes : ∀ a ∈ as, ∀ x ∈ a.bytes, s'.heap.mem x = s.heap.mem x
  outside : ∀ x, (∀ r ∈ seed.ranges, x ∉ r) → s'.heap.mem x = s.heap.mem x

variable {seed : Seeding} {bs : List Block} {as as' : List Allocation} {a : Allocation}
  {layout : Layout} {s s' s'' : HeapSystem}

namespace Same

theorem refl (seed : Seeding) (as : List Allocation) (s : HeapSystem) : Same seed as s s :=
  ⟨fun _ _ _ _ => rfl, fun _ _ => rfl⟩

/-- What stays the same twice stays the same. -/
theorem trans (h : Same seed as s s') (h' : Same seed as s' s'') : Same seed as s s'' :=
  ⟨fun a ha x hx => (h'.bytes a ha x hx).trans (h.bytes a ha x hx),
    fun x hx => (h'.outside x hx).trans (h.outside x hx)⟩

theorem subset (h : Same seed as s s') (hsub : as' ⊆ as) : Same seed as' s s' :=
  ⟨fun a ha => h.bytes a (hsub ha), h.outside⟩

/-- Stores inside of a block change nothing for allocations that do not overlap them. -/
theorem of_block {pool : Pool seed} {b : Block} {span : Span} (hb : b ∈ pool.blocks)
    (hin : span.Within b.span) (hapart : ∀ a ∈ as, a.bytes.Apart span)
    (hsame : ∀ x, x ∉ span → s'.heap.mem x = s.heap.mem x) : Same seed as s s' where
  bytes a ha x hx := hsame x (Span.apart_iff.1 (hapart a ha) x hx)
  outside x hx := by
    obtain ⟨-, r, hr, hrange⟩ := pool.tiles.mem hb
    exact hsame x fun hmem => hx r hr ((hin.trans hrange).mem hmem)

/-- An array inside an allocation stays as it is. -/
theorem readArray_eq (h : Same seed as s s') (ha : a ∈ as) {k n : ℕ} (hle : k * n ≤ a.layout.size) :
    Bytes.readArray s'.heap.mem a.ptr k n = Bytes.readArray s.heap.mem a.ptr k n :=
  Bytes.readArray_congr fun x hlo hhi => h.bytes a ha x ⟨hlo, by show x < a.ptr + _; omega⟩

end Same

namespace Owns

/-- The order of the allocations is of no matter. -/
theorem perm (h : Owns seed bs as s) (hperm : as.Perm as') : Owns seed bs as' s where
  sound := h.sound
  live := fun a ha => h.live a (hperm.mem_iff.2 ha)
  distinct := (hperm.pairwise_iff fun hne => hne.symm).1 h.distinct

/-- A client may forget allocations. -/
theorem sublist (h : Owns seed bs as s) (hsub : as'.Sublist as) : Owns seed bs as' s where
  sound := h.sound
  live := fun a ha => h.live a (hsub.subset ha)
  distinct := h.distinct.sublist hsub

theorem leak (h : Owns seed bs (a :: as) s) : Owns seed bs as s :=
  h.sublist (List.sublist_cons_self a as)

theorem ptr_lt (h : Owns seed bs as s) (ha : a ∈ as) : a.ptr < 2 ^ 64 := by
  obtain ⟨pool, -, hsound⟩ := h.sound
  obtain ⟨b, hb, -, hptr, -⟩ := hsound.live a (h.live a ha)
  obtain ⟨-, hroom, hend⟩ := pool.mem_bounds hb
  omega

/-- The end of an allocation fits into an address. -/
theorem end_lt (h : Owns seed bs as s) (ha : a ∈ as) : a.ptr + a.layout.size < 2 ^ 64 := by
  obtain ⟨pool, -, hsound⟩ := h.sound
  obtain ⟨b, hb, -, -, hin⟩ := hsound.live a (h.live a ha)
  obtain ⟨-, -, hend⟩ := pool.mem_bounds hb
  exact hin.2.trans_lt hend

/-- An allocation is taken from a block of the heap. -/
theorem allocateOr (h : Owns seed bs as s) (hpos : 0 < layout.size) (msg : String) :
    Method.Follows (layout.take bs)
      (fun r p s' => p = r.1.place layout.demand ∧ r.1.Granular ∧ r.1.Serves layout.demand ∧
        Owns seed r.2 (⟨p, layout⟩ :: as) s' ∧ Same seed as s s')
      (HeapSystem.allocateOr msg layout) s := by
  obtain ⟨pool, rfl, hsound⟩ := h.sound
  cases htake : layout.take pool.blocks with
  | none =>
    have hrun := FirstFitAllocator.allocWithOptions_none hsound.represents fun c hc =>
      .inr (Layout.take_eq_none htake c hc)
    have hcall : allocate layout s = .ok 0 (step (.alloc layout) s) := by rw [allocate, hrun]
    refine ⟨.panic msg, step (.alloc layout) s, ?_⟩
    rw [HeapSystem.allocateOr, Method.bind_of_ok hcall]
    rfl
  | some r =>
    obtain ⟨b, bs'⟩ := r
    obtain ⟨pre, post, hsplit, hpre, hb, rfl⟩ := Layout.take_eq_some htake
    have hmem : b ∈ pool.blocks := Pool.mem_of_split hsplit
    obtain ⟨m', hrun, hne, hstep, -, hsame⟩ := step_alloc_some hsound hpos hsplit hpre hb
    have hsound' := sound_alloc_some hsound hpos hsplit hpre hb
    have hcall : allocate layout s =
        .ok (b.place layout.demand) (step (.alloc layout) s) := by rw [allocate, hrun]
    refine ⟨_, _, ?_, rfl, pool.granular b hmem, hb, ⟨⟨_, rfl, hsound'⟩, ?_, ?_⟩, ?_⟩
    · rw [HeapSystem.allocateOr, Method.bind_of_ok hcall, if_neg hne]
      rfl
    · rw [hstep]
      simpa using fun a ha => Or.inr (h.live a ha)
    · have hdistinct := hsound'.distinct
      rw [hstep] at hdistinct
      refine List.pairwise_cons.2 ⟨fun a ha => ?_, h.distinct⟩
      exact (List.pairwise_cons.1 hdistinct).1 a (h.live a ha)
    -- the headers that are written are inside a block that was free
    · rw [hstep]
      exact .of_block hmem ⟨le_rfl, le_rfl⟩
        (fun a ha => hsound.apart_free (h.live a ha) hmem hb.1) hsame

/-- A deallocation frees the block of the allocation. -/
theorem deallocate (h : Owns seed bs (a :: as) s) :
    Method.Returns (fun _ s' => Owns seed (freeAt a.ptr bs) as s' ∧ Same seed as s s')
      (HeapSystem.deallocate a.ptr) s := by
  obtain ⟨pool, rfl, hsound⟩ := h.sound
  obtain ⟨b, pre, post, hsplit, m', hptr, hrun, hstep, hsound', hsame⟩ :=
    sound_dealloc_live hsound (h.live a List.mem_cons_self)
  have hfree : freeAt a.ptr pool.blocks = (pool.free hsplit).blocks := by
    have hnodup := pool.addr_nodup
    rw [hsplit, List.map_append, List.map_cons, List.nodup_append] at hnodup
    rw [hptr, hsplit]
    refine freeAt_append fun c hc => ?_
    exact hnodup.2.2 c.addr (List.mem_map_of_mem hc) b.addr List.mem_cons_self
  refine ⟨(), step (.dealloc a.ptr) s, ?_, ⟨⟨_, hfree.symm, hsound'⟩, ?_, h.distinct.of_cons⟩,
    ?_⟩
  · rw [HeapSystem.deallocate, hrun]
  · intro c hc
    have hne := (List.pairwise_cons.1 h.distinct).1 c hc
    rw [hstep]
    exact List.mem_filter.2 ⟨h.leak.live c hc, by simpa using hne.symm⟩
  · rw [hstep]
    have hb : b ∈ pool.blocks := Pool.mem_of_split hsplit
    exact .of_block hb (pool.header_within hb)
      (fun c hc => hsound.apart_header (h.leak.live c hc) hb) hsame

/-- A write to one allocation leaves the blocks and the other allocations as they are. -/
theorem write (h : Owns seed bs (a :: as) s) {mem : Memory}
    (hmem : ∀ x, x ∉ a.bytes → mem x = s.heap.mem x) :
    Owns seed bs (a :: as) (s.setMem mem) ∧ Same seed as s (s.setMem mem) := by
  obtain ⟨pool, rfl, hsound⟩ := h.sound
  have ha := h.live a List.mem_cons_self
  refine ⟨⟨⟨pool, rfl, hsound.panicked, ?_, hsound.live, hsound.distinct, hsound.returned⟩,
    h.live, h.distinct⟩, ?_⟩
  · refine hsound.represents.congr fun c hc x hlo hhi => (hmem x fun hx => ?_).symm
    exact Span.apart_iff.1 (hsound.apart_header ha hc) x hx ⟨hlo, hhi⟩
  · obtain ⟨b, hb, -, -, hin⟩ := hsound.live a ha
    have hpayload : b.payload.Within b.span := ⟨Nat.le_add_right _ _, le_rfl⟩
    refine .of_block hb (hin.trans hpayload) (fun c hc => ?_) hmem
    have hne := (List.pairwise_cons.1 h.distinct).1 c hc
    exact hsound.apart_of_ne (h.leak.live c hc) ha hne.symm

/-- A copy into an allocation. -/
theorem copyBytes (h : Owns seed bs (a :: as) s) (src : ℕ) {dst n : ℕ}
    (hin : (⟨dst, dst + n⟩ : Span).Within a.bytes) :
    Method.Returns (fun _ s' => Owns seed bs (a :: as) s' ∧ Same seed as s s')
      (HeapSystem.copyBytes src dst n) s := by
  refine ⟨⟨⟩, _, rfl, h.write fun x hx => if_neg fun hdst => hx ?_⟩
  exact hin.mem hdst

/-- A store into an allocation. -/
theorem storeWord (h : Owns seed bs (a :: as) s) {ptr : ℕ} (value : ℕ)
    (hin : (⟨ptr, ptr + 8⟩ : Span).Within a.bytes) :
    Method.Returns (fun _ s' => s' = s.setMem (writeLE s.heap.mem ptr 8 value) ∧
        Owns seed bs (a :: as) s' ∧ Same seed as s s')
      (HeapSystem.storeWord ptr value) s := by
  refine ⟨⟨⟩, _, rfl, rfl, h.write fun x hx => if_neg fun hptr => hx ?_⟩
  exact hin.mem hptr

/-- The allocations of a client are disjoint. -/
theorem pairwise_apart (h : Owns seed bs as s) :
    as.Pairwise fun a a' => a.bytes.Apart a'.bytes := by
  obtain ⟨pool, -, hsound⟩ := h.sound
  exact h.distinct.imp_of_mem fun ha ha' hne =>
    hsound.apart_of_ne (h.live _ ha) (h.live _ ha') hne

/-- Every allocation has an allocated block of its own. -/
theorem block (h : Owns seed bs as s) (ha : a ∈ as) :
    ∃ b ∈ bs, b.isAllocated = true ∧ a.ptr = b.addr + headerSize ∧ a.bytes.Within b.payload := by
  obtain ⟨pool, rfl, hsound⟩ := h.sound
  exact hsound.live a (h.live a ha)

theorem represents (h : Owns seed bs as s) : s.heap.Represents bs := by
  obtain ⟨pool, rfl, hsound⟩ := h.sound
  exact hsound.represents

end Owns

/-- After `init_with_mmap` a client owns nothing, and there is a block for every seeded range. -/
theorem owns_start {map : MemoryMapHolder} (hmap : map.Usable) (mem : Memory) :
    ∃ heap, FirstFitAllocator.initWithMmap map { mem, firstHeader := 0 } = .ok () heap ∧
      Owns (map.seeding hmap) (map.seededRanges.map Block.ofSpan) [] (start heap) := by
  obtain ⟨heap, hrun, pool, hblocks, hsound⟩ := sound_start_blocks hmap mem
  exact ⟨heap, hrun, ⟨pool, hblocks, hsound⟩, by simp, .nil⟩

/-! ## The other clients -/

/-- Only its own deallocation ends an allocation. -/
theorem live_step (ha : a ∈ s.live) {action : HeapAction} (hne : action ≠ .dealloc a.ptr) :
    a ∈ (step action s).live := by
  cases action with
  | alloc layout =>
    rw [step]
    split
    · split
      · exact ha
      · exact List.mem_cons_of_mem _ ha
    · exact ha
  | dealloc ptr =>
    have hptr : a.ptr ≠ ptr := by
      rintro rfl
      exact hne rfl
    rw [step]
    split
    · split
      · exact List.mem_filter.2 ⟨ha, by simpa using hptr⟩
      · exact ha
    · exact ha
  | write addr value =>
    rw [step]
    split <;> exact ha

/-- Whatever the clients do, what a client does not deallocate stays its own. -/
theorem Owns.exec (h : Owns seed bs as s) (actions : List HeapAction)
    (hkeep : ∀ a ∈ as, HeapAction.dealloc a.ptr ∉ actions) :
    ∃ bs', Owns seed bs' as (Run.exec step actions s) := by
  obtain ⟨pool, -, hsound⟩ := h.sound
  obtain ⟨pool', hsound'⟩ := sound_exec ⟨pool, hsound⟩ actions
  refine ⟨pool'.blocks, ⟨pool', rfl, hsound'⟩, fun a ha => ?_, h.distinct⟩
  have hallowed : ∀ action ∈ actions, action ≠ .dealloc a.ptr := by
    rintro action haction rfl
    exact hkeep a ha haction
  have hstep : ∀ (s : HeapSystem) (action : HeapAction), action ≠ .dealloc a.ptr →
      a ∈ s.live → True → a ∈ (step action s).live :=
    fun _ _ hne hlive _ => live_step hlive hne
  have htrue : Run.Always step (fun _ => True) actions s :=
    Run.always_of_forall (fun _ => trivial) actions s
  exact (Run.Always.of_step hstep hallowed htrue (h.live a ha)).last

/-- A step that leaves a client alone: what it owns is not deallocated, and not written to. -/
def Spares (as : List Allocation) : HeapAction → Prop
  | .alloc _ => True
  | .dealloc ptr => ∀ a ∈ as, ptr ≠ a.ptr
  | .write addr _ => ∀ a ∈ as, addr ∉ a.bytes

/-- The bytes of a client stay as they are while the others leave it alone. -/
theorem Owns.same_step (h : Owns seed bs as s) {action : HeapAction} (hspares : Spares as action) :
    Same seed as s (step action s) := by
  obtain ⟨pool, -, hsound⟩ := h.sound
  cases action with
  | alloc layout =>
    rcases Nat.eq_zero_or_pos layout.size with hzero | hpos
    · rw [step_alloc_none hsound fun _ _ => .inl hzero]
      exact .refl seed as s
    cases hfit : firstFit layout.demand pool.blocks with
    | none =>
      rw [step_alloc_none hsound fun c hc => .inr (firstFit_eq_none.1 hfit c hc)]
      exact .refl seed as s
    | some found =>
      obtain ⟨p, bs'⟩ := found
      obtain ⟨pre, b, post, hsplit, hpre, hb, -, -⟩ := firstFit_eq_some hfit
      -- only headers in the free block are stored
      obtain ⟨m', -, -, hstep, -, hsame⟩ := step_alloc_some hsound hpos hsplit hpre hb
      have hmem : b ∈ pool.blocks := Pool.mem_of_split hsplit
      rw [hstep]
      exact .of_block hmem ⟨le_rfl, le_rfl⟩
        (fun a ha => hsound.apart_free (h.live a ha) hmem hb.1) hsame
  | dealloc ptr =>
    by_cases hptr : ∃ c ∈ s.live, c.ptr = ptr
    · obtain ⟨c, hc, rfl⟩ := hptr
      -- only the header of the freed block is stored
      obtain ⟨b, pre, post, hsplit, m', -, -, hstep, -, hsame⟩ := sound_dealloc_live hsound hc
      have hb : b ∈ pool.blocks := Pool.mem_of_split hsplit
      rw [hstep]
      exact .of_block hb (pool.header_within hb)
        (fun a ha => hsound.apart_header (h.live a ha) hb) hsame
    · rw [step, if_neg hptr]
      exact .refl seed as s
  | write addr value =>
    rw [step]
    split_ifs with howner
    · obtain ⟨c, hc, hx⟩ := howner
      obtain ⟨b, hb, -, -, hin⟩ := hsound.live c hc
      have hspan : (⟨addr, addr + 1⟩ : Span).Within b.span :=
        ⟨(Nat.le_add_right _ _).trans (hin.mem hx).1, (hin.mem hx).2⟩
      refine .of_block hb hspan (fun a ha => ?_) fun x hx => ?_
      · refine Span.apart_iff.2 fun x hx haddr => hspares a ha ?_
        rwa [← Nat.le_antisymm (Nat.le_of_lt_succ haddr.2) haddr.1]
      · have hne : x ≠ addr := fun heq => hx ⟨heq.ge, Nat.lt_succ_of_le heq.le⟩
        exact Function.update_of_ne hne value s.heap.mem
    · exact .refl seed as s

/-- What a client owns stays its own, with its bytes, along every run of the others. -/
theorem Owns.spared_exec (h : Owns seed bs as s) {actions : List HeapAction}
    (hspares : ∀ action ∈ actions, Spares as action) :
    (∃ bs', Owns seed bs' as (Run.exec step actions s)) ∧
      Same seed as s (Run.exec step actions s) := by
  induction actions generalizing s bs with
  | nil => exact ⟨⟨bs, h⟩, .refl seed as s⟩
  | cons action actions ih =>
    have hfirst := hspares action List.mem_cons_self
    have hkeep : ∀ a ∈ as, HeapAction.dealloc a.ptr ∉ [action] := by
      intro a ha hmem
      obtain rfl := List.mem_singleton.1 hmem
      exact hfirst a ha rfl
    obtain ⟨bs', hnext⟩ := h.exec [action] hkeep
    obtain ⟨howns, hsame⟩ := ih hnext fun b hb => hspares b (List.mem_cons_of_mem action hb)
    exact ⟨howns, (h.same_step hfirst).trans hsame⟩

end HeapSystem

end Mushix
