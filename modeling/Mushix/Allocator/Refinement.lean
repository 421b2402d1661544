import Mushix.Allocator.Blocks
import Mushix.Allocator.FirstFit

/-!
# The allocator refines first fit on blocks

`Heap.Represents s bs`: the headers that `first_header` leads to are the ones of the blocks
`bs`. While the blocks form a `Pool`, every method of the allocator does in memory what the
abstract model says about blocks, and changes no byte outside of one block.

* `allocWithOptions_none`, `allocWithOptions_carve`: an allocation;
* `dealloc_free`: a deallocation;
* `represents_update`: a write behind the header of a block.
-/

namespace Mushix

open Bytes (Memory AgreeOn)

/-! ## Layouts and demands -/

namespace Layout

variable {layout : Layout}

theorem align_eq (layout : Layout) : layout.align = 2 ^ Nat.log 2 layout.align := by
  obtain ⟨k, hk⟩ := layout.isPowerOfTwo
  rw [hk, Nat.log_pow (by decide)]

/-- The size is rounded up to less than its double. -/
theorem pow_clog_bounds (layout : Layout) :
    2 ^ Nat.clog 2 layout.size ≤ 2 * layout.size + 1 ∧ 2 ^ Nat.clog 2 layout.size ≤ 2 ^ 63 := by
  have hfits := layout.fits
  constructor
  · by_cases hsize : 1 < layout.size
    · have hlt := Nat.pow_pred_clog_lt_self (b := 2) (by decide) hsize
      have hlog := Nat.clog_pos (b := 2) (by decide) hsize
      obtain ⟨k, hk⟩ := Nat.exists_eq_succ_of_ne_zero hlog.ne'
      rw [hk, Nat.pred_succ] at hlt
      rw [hk, Nat.pow_succ]
      omega
    · rw [Nat.clog_of_right_le_one (Nat.le_of_not_lt hsize)]
      omega
  · exact Nat.pow_le_pow_right (by decide) (Nat.clog_le_of_le_pow (by omega))

/-- What the layout demands: the size rounded up to a power of two, and at least the size and
the alignment of a header. -/
def demand (layout : Layout) : Demand where
  need := max (2 ^ Nat.clog 2 layout.size) 32
  shift := max (Nat.log 2 layout.align) 5
  need_pos := by omega
  need_dvd := by
    rcases Nat.le_total (Nat.clog 2 layout.size) 5 with h | h
    · have hle : 2 ^ Nat.clog 2 layout.size ≤ 32 := Nat.pow_le_pow_right (n := 2) (by decide) h
      rw [Nat.max_eq_right hle]
    · have hle : 32 ≤ 2 ^ Nat.clog 2 layout.size := Nat.pow_le_pow_right (n := 2) (by decide) h
      rw [Nat.max_eq_left hle]
      exact Nat.pow_dvd_pow 2 h
  five_le_shift := Nat.le_max_right _ _
  shift_lt := by
    have hlog : Nat.log 2 layout.align < 64 := by
      have hle : layout.align ≤ 2 ^ 63 := (Nat.le_add_left _ _).trans layout.fits
      rw [layout.align_eq] at hle
      exact Nat.lt_succ_of_le ((Nat.pow_le_pow_iff_right (by decide)).1 hle)
    omega
  fits := by
    have hround := layout.pow_clog_bounds
    have hfits := layout.fits
    have halign : 2 ^ max (Nat.log 2 layout.align) 5 ≤ layout.align + 32 := by
      rcases Nat.le_total (Nat.log 2 layout.align) 5 with h | h
      · rw [Nat.max_eq_right h]
        omega
      · rw [Nat.max_eq_left h, ← layout.align_eq]
        omega
    unfold headerSize
    omega

theorem demand_need (layout : Layout) :
    layout.demand.need = max (2 ^ Nat.clog 2 layout.size) headerSize := rfl

/-- A demand is aligned as its layout, and for a header. -/
theorem demand_align (layout : Layout) :
    max layout.align headerSize = 2 ^ layout.demand.shift := by
  show max layout.align (2 ^ 5) = 2 ^ max (Nat.log 2 layout.align) 5
  rcases Nat.le_total (Nat.log 2 layout.align) 5 with h | h
  · rw [Nat.max_eq_right h, Nat.max_eq_right]
    rw [layout.align_eq]
    exact Nat.pow_le_pow_right (by decide) h
  · rw [Nat.max_eq_left h, ← layout.align_eq, Nat.max_eq_left]
    rw [layout.align_eq]
    exact Nat.pow_le_pow_right (by decide) h

theorem size_le_need (layout : Layout) : layout.size ≤ layout.demand.need :=
  (Nat.le_pow_clog (by decide) _).trans (Nat.le_max_left _ _)

/-- What is aligned for the demand is aligned for the layout. -/
theorem mod_align {p : ℕ} (h : p % 2 ^ layout.demand.shift = 0) : p % layout.align = 0 := by
  have hdvd : layout.align ∣ 2 ^ layout.demand.shift := by
    rw [layout.align_eq]
    exact Nat.pow_dvd_pow 2 (Nat.le_max_left _ _)
  exact Nat.mod_eq_zero_of_dvd (hdvd.trans (Nat.dvd_of_mod_eq_zero h))

/-- The size is rounded up to the next power of two. -/
theorem roundUp_eq (hpos : 0 < layout.size) :
    roundUpToNearestPow2 layout.size = .ok (2 ^ Nat.clog 2 layout.size) :=
  roundUpToNearestPow2_eq hpos ((Nat.le_add_right _ _).trans layout.fits)

end Layout

/-! ## The chain of headers -/

/-- The headers from `ptr` on are the ones of the blocks, in this order. -/
def Chain (m : Memory) : ℕ → List Block → Prop
  | ptr, [] => ptr = 0
  | ptr, b :: bs => ptr ≠ 0 ∧ ptr = b.addr ∧ (Header.load m ptr).size = b.size ∧
      (Header.load m ptr).isAllocated = b.isAllocated ∧ Chain m (Header.load m ptr).nextHeader bs

/-- The headers of the heap are the ones of the blocks, in this order. -/
def Heap.Represents (s : Heap) (bs : List Block) : Prop := Chain s.mem s.firstHeader bs

namespace Chain

variable {m m' : Memory} {ptr : ℕ} {bs pre rest rest' : List Block}

/-- A header in front of a chain. -/
theorem cons {h : Header} {b : Block} (hload : Header.load m ptr = h) (hne : ptr ≠ 0)
    (haddr : ptr = b.addr) (hsize : h.size = b.size) (hallocated : h.isAllocated = b.isAllocated)
    (hrest : Chain m h.nextHeader bs) : Chain m ptr (b :: bs) := by
  subst hload
  exact ⟨hne, haddr, hsize, hallocated, hrest⟩

/-- A chain depends on the bytes of its headers only. -/
theorem congr (h : Chain m ptr bs) (hagree : ∀ b ∈ bs, AgreeOn b.addr headerSize m m') :
    Chain m' ptr bs := by
  induction bs generalizing ptr with
  | nil => exact h
  | cons b bs ih =>
    obtain ⟨hne, rfl, hsize, hallocated, hrest⟩ := h
    have hload := Header.load_congr (hagree b List.mem_cons_self)
    refine ⟨hne, rfl, hload ▸ hsize, hload ▸ hallocated, ?_⟩
    rw [← hload]
    exact ih hrest fun c hc => hagree c (List.mem_cons_of_mem b hc)

/-- A chain leads to each of its headers. -/
theorem of_append (h : Chain m ptr (pre ++ rest)) : ∃ q, Chain m q rest := by
  induction pre generalizing ptr with
  | nil => exact ⟨ptr, h⟩
  | cons b pre ih =>
    obtain ⟨-, -, -, -, htail⟩ := h
    exact ih htail

/-- The end of a chain may change while the headers before it stay as they are. -/
theorem splice (h : Chain m ptr (pre ++ rest))
    (hpre : ∀ b ∈ pre, AgreeOn b.addr headerSize m m')
    (hrest : ∀ q, Chain m q rest → Chain m' q rest') : Chain m' ptr (pre ++ rest') := by
  induction pre generalizing ptr with
  | nil => exact hrest ptr h
  | cons b pre ih =>
    obtain ⟨hne, rfl, hsize, hallocated, htail⟩ := h
    have hload := Header.load_congr (hpre b List.mem_cons_self)
    refine ⟨hne, rfl, hload ▸ hsize, hload ▸ hallocated, ?_⟩
    rw [← hload]
    exact ih htail fun c hc => hpre c (List.mem_cons_of_mem b hc)

end Chain

namespace FirstFitAllocator

variable {seed : Seeding} {pool : Pool seed} {layout : Layout} {s : Heap} {m' : Memory}
  {b c : Block} {pre post rest : List Block} {ptr x : ℕ}

/-- A change inside one block leaves the headers of the other blocks alone. -/
theorem agree_of_split (h : pool.blocks = pre ++ b :: post)
    (hsame : ∀ x, x ∉ b.span → m' x = s.mem x) (hc : c ∈ pre ∨ c ∈ post) :
    AgreeOn c.addr headerSize s.mem m' := by
  have hmem : c ∈ pool.blocks := (Pool.mem_iff_of_split h).2 (.inr hc)
  have hroom := (pool.mem_bounds hmem).2.1
  have hapart := Span.apart_iff.1 (Pool.apart_of_split h hc)
  intro x hlo hhi
  have hx : x ∈ c.span := ⟨hlo, by show x < c.addr + c.size; omega⟩
  exact (hsame x (hapart x hx)).symm

/-! ## Allocation -/

/-- A block that does not serve the demand provides nothing, and neither does any block when no
bytes are asked for. -/
theorem provide_of_not_serves (hsize : (Header.load s.mem ptr).size = b.size)
    (hallocated : (Header.load s.mem ptr).isAllocated = b.isAllocated)
    (hnot : layout.size = 0 ∨ ¬b.Serves layout.demand) :
    Header.provide ptr layout.size layout.align s = .ok none s := by
  rcases Nat.eq_zero_or_pos layout.size with hzero | hpos
  · rw [Header.provide, hzero, roundUpToNearestPow2_zero]
    rfl
  have hfits := layout.demand.fits
  rw [layout.demand_need] at hfits
  refine Header.provide_none (layout.roundUp_eq hpos) ?_ ?_
  · rw [layout.demand_align]
    exact hfits
  · have hno := hnot.resolve_left hpos.ne'
    rw [Block.Serves, not_and] at hno
    rw [layout.demand_align, hsize, hallocated, ← layout.demand_need]
    cases hb : b.isAllocated with
    | true => exact .inl rfl
    | false => exact .inr (Nat.lt_of_not_le (hno hb))

/-- The loop passes over the blocks that do not serve the demand. -/
theorem allocLoop_skip (h : Chain s.mem ptr (pre ++ rest))
    (hnot : ∀ c ∈ pre, layout.size = 0 ∨ ¬c.Serves layout.demand) (fuel : ℕ) :
    ∃ q, Chain s.mem q rest ∧
      allocLoop layout (fuel + pre.length) ptr s = allocLoop layout fuel q s := by
  induction pre generalizing ptr with
  | nil => exact ⟨ptr, h, rfl⟩
  | cons b pre ih =>
    obtain ⟨hne, -, hsize, hallocated, htail⟩ := h
    obtain ⟨q, hq, hrun⟩ := ih htail fun c hc => hnot c (List.mem_cons_of_mem b hc)
    have hprovide := provide_of_not_serves hsize hallocated (hnot b List.mem_cons_self)
    refine ⟨q, hq, ?_⟩
    rw [List.length_cons, ← Nat.add_assoc, allocLoop, if_neg hne, Method.bind_of_ok hprovide]
    exact hrun

/-- The fuel of `allocWithOptions` is enough to reach any block of a pool. -/
theorem allocWithOptions_skip (hs : s.Represents (pre ++ rest))
    (hlength : (pre ++ rest).length ≤ 2 ^ 64)
    (hnot : ∀ c ∈ pre, layout.size = 0 ∨ ¬c.Serves layout.demand) :
    ∃ q fuel, Chain s.mem q rest ∧
      allocWithOptions layout s = allocLoop layout (fuel + 1) q s := by
  obtain ⟨q, hq, hrun⟩ := allocLoop_skip hs hnot (2 ^ 64 - pre.length + 1)
  refine ⟨q, 2 ^ 64 - pre.length, hq, ?_⟩
  rw [← hrun]
  rw [List.length_append] at hlength
  rw [show 2 ^ 64 - pre.length + 1 + pre.length = 2 ^ 64 + 1 by omega]
  rfl

/-- Without a block that serves the demand the null pointer is returned. -/
theorem allocWithOptions_none (hs : s.Represents pool.blocks)
    (hnot : ∀ c ∈ pool.blocks, layout.size = 0 ∨ ¬c.Serves layout.demand) :
    allocWithOptions layout s = .ok 0 s := by
  have happend := List.append_nil pool.blocks
  obtain ⟨q, fuel, hq, hrun⟩ :=
    allocWithOptions_skip (happend.symm ▸ hs) (happend.symm ▸ pool.length_le) hnot
  obtain rfl : q = 0 := hq
  exact hrun

/-- The headers of the parts of a block are inside the block. -/
theorem header_within_of_mem_carve (h : pool.blocks = pre ++ b :: post) {d : Demand}
    (hb : b.Serves d) (hc : c ∈ b.carve d) : c.header.Within b.span := by
  obtain ⟨-, hroom, -⟩ := (pool.carve h hb).mem_bounds (Pool.mem_replaced_iff.2 (.inl hc))
  obtain ⟨hlo, hhi⟩ := (hb.carve_tiles.mem hc).2
  have hhi' : c.addr + c.size ≤ b.addr + b.size := hhi
  refine ⟨hlo, ?_⟩
  show c.addr + headerSize ≤ b.addr + b.size
  omega

/-- A block that serves the demand is carved, and nothing but the headers of its parts is
written. -/
theorem provide_carve (hpos : 0 < layout.size) (hs : s.Represents pool.blocks)
    (h : pool.blocks = pre ++ b :: post) (hb : b.Serves layout.demand) :
    ∃ m', Header.provide b.addr layout.size layout.align s =
        .ok (some (b.place layout.demand)) { s with mem := m' } ∧
      ({ s with mem := m' } : Heap).Represents (pool.carve h hb).blocks ∧
      ∀ x, (∀ c ∈ b.carve layout.demand, x ∉ c.header) → m' x = s.mem x := by
  obtain ⟨hlo, hsum⟩ := hb.place_bounds
  have hmem : b ∈ pool.blocks := Pool.mem_of_split h
  obtain ⟨haddr, -, hend⟩ := pool.mem_bounds hmem
  have hneed := layout.demand.need_pos
  have hhead : 0 < headerSize := by decide
  have hs' : Chain s.mem s.firstHeader (pre ++ b :: post) := h ▸ hs
  obtain ⟨q, hne, rfl, hsize, hallocated, -⟩ := hs'.of_append
  obtain ⟨m', hrun, hself, hown, hgap, hsame⟩ := Header.provide_spec (layout.roundUp_eq hpos)
    layout.demand_need layout.demand_align layout.demand.shift_lt (hallocated.trans hb.1)
    (hsize ▸ hb.2) (hsize ▸ hend) (by rw [hsize]; rfl : b.padding layout.demand = _)
    (by rw [hsize]; rfl : b.place layout.demand = _)
  have hparts : ∀ x, (∀ c ∈ b.carve layout.demand, x ∉ c.header) → m' x = s.mem x := by
    intro x hx
    have hout : ∀ c ∈ b.carve layout.demand, x < c.addr ∨ c.addr + headerSize ≤ x := by
      intro c hc
      have hnot : ¬(c.addr ≤ x ∧ x < c.addr + headerSize) := hx c hc
      omega
    have hrest := hout _ List.mem_cons_self
    have htaken := hout _ (List.mem_cons_of_mem _ List.mem_cons_self)
    refine hsame x fun a ha => ?_
    rcases List.mem_append.1 ha with ha | ha
    · rcases List.mem_cons.1 ha with rfl | ha
      · exact hrest
      · obtain rfl := List.mem_singleton.1 ha
        exact htaken
    · rw [List.mem_ite_nil_left] at ha
      obtain ⟨hne, ha⟩ := ha
      obtain rfl := List.mem_singleton.1 ha
      refine hout ⟨b.place layout.demand + layout.demand.need, b.padding layout.demand, false⟩ ?_
      rw [Block.carve, Block.gap, if_neg hne]
      simp
  -- all headers that are written lie inside the block
  have houtside : ∀ x, x ∉ b.span → m' x = s.mem x := fun x hx =>
    hparts x fun c hc hx' => hx ((header_within_of_mem_carve h hb hc).mem hx')
  have hagree := fun c => agree_of_split (c := c) h houtside
  refine ⟨m', hrun, ?_, hparts⟩
  -- up to the block the chain is the old one, and behind its parts it is the old one again
  refine hs'.splice (fun c hc => hagree c (.inl hc)) fun q hq => ?_
  obtain ⟨-, rfl, -, -, hpost⟩ := hq
  have hpost' := hpost.congr fun c hc => hagree c (.inr hc)
  have hplace : b.place layout.demand - headerSize ≠ 0 := by omega
  refine .cons hself hne rfl rfl hallocated (.cons hown hplace rfl rfl rfl ?_)
  show Chain m' (if b.padding layout.demand = 0 then _ else _) (b.gap layout.demand ++ post)
  rw [Block.gap]
  split
  · exact hpost'
  case isFalse hne' =>
    exact .cons (hgap hne') (by omega) rfl rfl rfl hpost'

/-- The first block that serves the demand is carved. -/
theorem allocWithOptions_carve (hpos : 0 < layout.size) (hs : s.Represents pool.blocks)
    (h : pool.blocks = pre ++ b :: post) (hpre : ∀ c ∈ pre, ¬c.Serves layout.demand)
    (hb : b.Serves layout.demand) :
    ∃ m', allocWithOptions layout s = .ok (b.place layout.demand) { s with mem := m' } ∧
      ({ s with mem := m' } : Heap).Represents (pool.carve h hb).blocks ∧
      ∀ x, x ∉ b.span → m' x = s.mem x := by
  obtain ⟨q, fuel, hq, hloop⟩ := allocWithOptions_skip (h ▸ hs) (h ▸ pool.length_le)
    fun c hc => .inr (hpre c hc)
  obtain ⟨hne, rfl, -, -, -⟩ := hq
  obtain ⟨m', hrun, hrep, hsame⟩ := provide_carve hpos hs h hb
  refine ⟨m', ?_, hrep, fun x hx => hsame x fun c hc hx' =>
    hx ((header_within_of_mem_carve h hb hc).mem hx')⟩
  rw [hloop, allocLoop, if_neg hne, Method.bind_of_ok hrun]
  rfl

/-! ## Deallocation -/

/-- The block in front of the pointer becomes free. -/
theorem dealloc_free (hs : s.Represents pool.blocks) (h : pool.blocks = pre ++ b :: post) :
    ∃ m', dealloc (b.addr + headerSize) s = .ok () { s with mem := m' } ∧
      ({ s with mem := m' } : Heap).Represents (pool.free h).blocks ∧
      ∀ x, x ∉ b.header → m' x = s.mem x := by
  have hmem : b ∈ pool.blocks := Pool.mem_of_split h
  have hroom := (pool.mem_bounds hmem).2.1
  let freed := (Header.load s.mem b.addr).setIsAllocated false
  have hfits : freed.Fits := by
    have hfits := Header.load_fits s.mem b.addr
    exact ⟨hfits.nextHeader, hfits.size, hfits.reserved⟩
  -- one store, in the header of the block
  have hsame : ∀ x, x ∉ b.header → Header.store s.mem b.addr freed x = s.mem x := by
    intro x hx
    have hx : ¬(b.addr ≤ x ∧ x < b.addr + headerSize) := hx
    exact Header.store_of_not_mem (by omega)
  have hagree := fun c => agree_of_split (c := c) h fun x hx =>
    hsame x fun hx' => hx ⟨hx'.1, hx'.2.trans_le (Nat.add_le_add_left hroom _)⟩
  refine ⟨Header.store s.mem b.addr freed, ?_, ?_, hsame⟩
  · rw [dealloc, Header.fromAllocatedRegion, Usize.sub_bind (Nat.le_add_left _ _),
      Nat.add_sub_cancel]
    rfl
  · have hs' : Chain s.mem s.firstHeader (pre ++ b :: post) := h ▸ hs
    refine hs'.splice (fun c hc => hagree c (.inl hc)) fun q hq => ?_
    obtain ⟨hne, rfl, hsize, -, hpost⟩ := hq
    exact .cons (Header.load_store _ _ hfits) hne rfl hsize rfl
      (hpost.congr fun c hc => hagree c (.inr hc))

/-! ## Use of the memory -/

/-- A byte behind the header of one block is in no header. -/
theorem not_mem_header (hb : b ∈ pool.blocks) (hx : x ∈ b.payload) (hc : c ∈ pool.blocks) :
    x ∉ c.header := by
  obtain ⟨pre, post, h⟩ := List.append_of_mem hb
  intro hx'
  have hlo : b.addr + headerSize ≤ x := hx.1
  have hhi : x < c.addr + headerSize := hx'.2
  have hroom := (pool.mem_bounds hc).2.1
  have hin : x ∈ c.span := ⟨hx'.1, by show x < c.addr + c.size; omega⟩
  have hin' : x ∈ b.span := ⟨by show b.addr ≤ x; omega, hx.2⟩
  -- a byte of another block is in no header of this one
  have hother : c ∈ pre ∨ c ∈ post → False := fun hc =>
    Span.apart_iff.1 (Pool.apart_of_split h hc) x hin hin'
  rcases (Pool.mem_iff_of_split h).1 hc with rfl | hc
  · omega
  · exact hother hc

/-- The headers stay as they are while only bytes behind headers are written. -/
theorem represents_update (hs : s.Represents pool.blocks) (hb : b ∈ pool.blocks)
    (hx : x ∈ b.payload) (v : BitVec 8) :
    ({ s with mem := Function.update s.mem x v } : Heap).Represents pool.blocks := by
  refine hs.congr fun c hc y hlo hhi => ?_
  have hne : y ≠ x := by
    rintro rfl
    exact not_mem_header hb hx hc ⟨hlo, hhi⟩
  exact (Function.update_of_ne hne v s.mem).symm

end FirstFitAllocator

end Mushix
