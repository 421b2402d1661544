import Mushix.Paging.Demand
import Mushix.Paging.LastMapping

/-!
# Page tables of others

`with_current_page_table` hands `create_mapping` the tables that CR3 points to, whoever built
them. The processor accepts trees with large pages and with attributes in bits 52 to 63 of their
pointers; `table_mut` takes every present entry for a pointer to a table and keeps these bits in
the address.

* `PML4.Framed`: a call changes no translation outside its pages and stores to page tables only;
* `PML4.GetsTo`: the pages that a call gets to before it ends;
* `PML4.framed_of_meetsTables`: a call is framed where the walks of these pages meet no other
  pointers.
-/

namespace Mushix

section Places

variable {mem : ℕ → BitVec 64} {root t h q : ℕ}

theorem Reaches.height (hreach : Reaches mem root t h q) :
    h ≤ 3 ∧ (h = 3 → t = root ∧ q = 0) := by
  induction hreach with
  | root => exact ⟨le_rfl, fun _ => ⟨rfl, rfl⟩⟩
  | child _ _ _ _ ih => exact ⟨by omega, by omega⟩

/-- A table is reached on the walk of every page it is responsible for. -/
theorem Reaches.meetsTables (hreach : Reaches mem root t h q) {n : ℕ}
    (hmeets : MeetsTables mem 3 root (4096 * n)) (hq : n / 512 ^ (h + 1) = q) :
    MeetsTables mem h t (4096 * n) := by
  induction hreach with
  | root => exact hmeets
  | @child t h q i parent index present pointer ih =>
    have hdiv := Radix.div_succ_of_div_eq index hq
    have hdigit : Radix.digit 512 (h + 1) n = i := Radix.digit_of_div_eq index hq
    have htable := ih hdiv
    rw [MeetsTables, slot_page, hdigit] at htable
    exact (htable present).2

open Classical in
/-- The places of the tables of a tree. -/
noncomputable def placeOf (mem : ℕ → BitVec 64) (root : ℕ) : Owners := fun t =>
  if h : ∃ r : ℕ × ℕ, Reaches mem root t r.1 r.2 then some h.choose else none

/-- In a tree the place of a table is where the walk reaches it. -/
theorem placeOf_eq_some_iff (htree : IsTree mem root) :
    placeOf mem root t = some (h, q) ↔ Reaches mem root t h q := by
  constructor
  · intro hplace
    rw [placeOf] at hplace
    split at hplace
    case isTrue hex =>
      have hreach := hex.choose_spec
      rwa [Option.some.inj hplace] at hreach
    case isFalse => cases hplace
  · intro hreach
    have hex : ∃ r : ℕ × ℕ, Reaches mem root t r.1 r.2 := ⟨(h, q), hreach⟩
    obtain ⟨hh, hq⟩ := htree _ _ _ _ _ hex.choose_spec hreach
    rw [placeOf, dif_pos hex]
    exact congrArg some (Prod.ext hh hq)

theorem placeOf_eq_none_iff : placeOf mem root t = none ↔ ∀ h q, ¬Reaches mem root t h q := by
  rw [placeOf]
  split
  case isTrue hex =>
    refine iff_of_false (by simp) fun hnone => ?_
    exact hnone _ _ hex.choose_spec
  case isFalse hnot => exact iff_of_true rfl fun h q hreach => hnot ⟨(h, q), hreach⟩

end Places

namespace PML4

open Radix (digit blockEnd)

variable {box : BoxSource} {root : ℕ} {s : TableMemory} {r : MapRequest}

/-- A tree in which the walks of some pages meet pointers only has the shape of a tree of page
tables. -/
theorem shape_of_tree {AtRisk : ℕ → Prop} (hroot : root % 4096 = 0 ∧ root + 4096 ≤ 2 ^ 52)
    (htree : IsTree s.mem root)
    (hfresh : ∀ k, s.boxes ≤ k → k < box.supply → ∀ h q, ¬Reaches s.mem root (box.addr k) h q)
    (hmeets : ∀ n, AtRisk n → MeetsTables s.mem 3 root (4096 * n)) :
    Shape box root AtRisk IsTablePointer (placeOf s.mem root) s := by
  have hplace : ∀ {t h q}, placeOf s.mem root t = some (h, q) ↔ Reaches s.mem root t h q :=
    placeOf_eq_some_iff htree
  refine ⟨hplace.2 .root, fun ht => (hplace.1 ht).height, ?_, ?_, ?_, ?_, ?_⟩
  · rintro t ⟨h, q⟩ ht
    cases hplace.1 ht with
    | root => exact hroot
    | child => exact frame_page _
  · intro t h q i ht hi hp hl
    exact hplace.2 (.child (hplace.1 ht) hi hp hl)
  · intro t h q i n ht hi hrisk hn hp
    -- the walk of a page at risk comes through this entry
    have htable := (hplace.1 ht).meetsTables (hmeets n hrisk) (Radix.div_succ_of_div_eq hi hn)
    rw [MeetsTables, slot_page, Radix.digit_of_div_eq hi hn] at htable
    exact (htable hp).1
  · intro t h q ht hlt
    cases hplace.1 ht with
    | root => omega
    | @child p _ q i parent index present pointer =>
      rw [show (512 * q + i) / 512 = q by omega, show (512 * q + i) % 512 = i by omega]
      exact ⟨p, hplace.2 parent, present, pointer, rfl⟩
  · exact fun hk hlt => placeOf_eq_none_iff.2 (hfresh _ hk hlt)

/-- A page table: one of the tree, or a page that `Box::new` returned on the way to `s'`. -/
def IsPageTable (box : BoxSource) (root : ℕ) (s s' : TableMemory) (t : ℕ) : Prop :=
  (∃ h q, Reaches s.mem root t h q) ∨ ∃ k, s.boxes ≤ k ∧ k < s'.boxes ∧ box.addr k = t

/-- From `s` to `s'` the call changed no translation outside its pages and stored to page tables
only. -/
structure Framed (box : BoxSource) (root : ℕ) (r : MapRequest) (s s' : TableMemory) : Prop where
  translations : ∀ va, Canonical va → ¬r.Covers va →
    translate s'.mem root va = translate s.mem root va
  stores : ∀ w ∈ s'.written, w ∈ s.written ∨
    ∃ t, IsPageTable box root s s' t ∧ w.Within ⟨t, t + 4096⟩

/-- What mapping pages of the call does is framed. -/
theorem framed_of_maps {own' : Owners} {s' : TableMemory} {m : ℕ} {AtRisk : ℕ → Prop}
    (htree : IsTree s.mem root) (hm : m ≤ r.limit)
    (hs : Shape box root AtRisk IsTablePointer (placeOf s.mem root) s)
    (hs' : Shape box root AtRisk IsTablePointer own' s')
    (hmaps : Maps box AtRisk IsTablePointer r.call.pte (placeOf s.mem root) own' s s' r.first m) :
    Framed box root r s s' := by
  refine ⟨fun va hva hnot => ?_, ?_⟩
  · have hlimit := r.limit_le
    have hout : va % 2 ^ 48 / 4096 < r.first ∨ m ≤ va % 2 ^ 48 / 4096 := by
      rcases hva with hlow | ⟨hhigh, hlt⟩
      · rw [MapRequest.covers_iff] at hnot
        omega
      · omega
    -- the four levels take 48 bits, so every page is below the PML4 table
    have htop : va % 2 ^ 48 / 4096 / 512 ^ 4 = 0 := Nat.div_eq_of_lt (by omega)
    rw [translate, translate, ← walk_mod s.mem le_rfl, ← walk_mod s'.mem le_rfl]
    exact hmaps.walk_of_not_mem (fun _ h => h.1) hs hs' hout (hs.owns_root.trans (by rw [htop]))
  · intro w hw
    obtain ⟨ws, hws, hin⟩ := hmaps.written
    rw [hws] at hw
    rcases List.mem_append.1 hw with hnew | hold
    case inr => exact .inl hold
    obtain ⟨t, ht, hwithin⟩ := hin w hnew
    refine .inr ⟨t, ?_, hwithin⟩
    -- a table that is stored to was there before the call, or it is a new page
    cases hold : placeOf s.mem root t with
    | some place => exact .inl ⟨place.1, place.2, (placeOf_eq_some_iff htree).1 hold⟩
    | none =>
      obtain ⟨k, hlo, hhi, heq⟩ := hmaps.new hold ht
      exact .inr ⟨k, hlo, hhi, heq.symm⟩

/-- The call gets to page `n`: the walks of the pages before it meet pointers to tables only, none
of these pages overflows `phys + addr`, and `Box::new` has pages for the tables they lack. -/
structure GetsTo (box : BoxSource) (root : ℕ) (r : MapRequest) (s : TableMemory) (n : ℕ) :
    Prop where
  first_le : r.first ≤ n
  lt_limit : n < r.limit
  meets : ∀ k, r.first ≤ k → k < n → MeetsTables s.mem 3 root (4096 * k)
  fits : ∀ k, r.first ≤ k → k < n → r.phys + 4096 * k < 2 ^ 64
  supplied : demand s.mem root r.first n ≤ box.supply - s.boxes

/-- A page of an aligned call is refused when its physical address overflows. -/
theorem refusal_call_eq_none_iff {n : ℕ} :
    r.call.refusal n = none ↔ r.phys + 4096 * n < 2 ^ 64 := by
  rw [MapCall.refusal_eq_none_iff, r.call_address]
  exact and_iff_left r.phys_aligned

section GetsTo

variable {AtRisk : ℕ → Prop} {n : ℕ} {s' : TableMemory}

/-- Where the walks of the pages that the call gets to meet pointers to tables only, it gets to
every page up to which it has mapped. -/
theorem getsTo_of_mapped (hs : Shape box root AtRisk IsTablePointer (placeOf s.mem root) s)
    (hmeets : ∀ n, GetsTo box root r s n → MeetsTables s.mem 3 root (4096 * n))
    (hn : n < r.limit)
    (hmapped : Mapped box root AtRisk IsTablePointer r.call (placeOf s.mem root) s r.first n s') :
    GetsTo box root r s n := by
  obtain ⟨hle, hset, own', hs', hmaps⟩ := hmapped
  have hlimit := r.limit_le
  have hsupply := hmaps.boxes_le_supply
  -- page by page: the tables that the pages before it lack were added by the call
  have hgets : ∀ c, r.first ≤ c → c ≤ n → GetsTo box root r s c := by
    intro c
    induction c using Nat.strong_induction_on with
    | _ c ih =>
      intro hfirst hc
      have hbefore : ∀ k, r.first ≤ k → k < c → MeetsTables s.mem 3 root (4096 * k) :=
        fun k hlo hhi => hmeets k (ih k hhi hlo (hhi.le.trans hc))
      have hdemand := hs.demand_le_boxes hs' hbefore hmaps hc (by omega)
      refine ⟨hfirst, hc.trans_lt hn, hbefore, fun k hlo hhi => ?_, by omega⟩
      exact refusal_call_eq_none_iff.1 (hset k hlo (hhi.trans_le hc))
  exact hgets n hle le_rfl

end GetsTo

/-- The call is framed where the walks of the pages that it gets to meet pointers to tables
only. -/
theorem framed_of_meetsTables (hroot : root % 4096 = 0 ∧ root + 4096 ≤ 2 ^ 52)
    (htree : IsTree s.mem root)
    (hfresh : ∀ k, s.boxes ≤ k → k < box.supply → ∀ h q, ¬Reaches s.mem root (box.addr k) h q)
    (hmeets : ∀ n, GetsTo box root r s n → MeetsTables s.mem 3 root (4096 * n)) :
    Framed box root r s
      ((createMapping box r.virtStart r.virtEnd r.phys r.attr root).stateAfter s) := by
  have hs : Shape box root (GetsTo box root r s) IsTablePointer (placeOf s.mem root) s :=
    shape_of_tree hroot htree hfresh hmeets
  have hrisk : ∀ n s', n < r.call.limit → Mapped box root (GetsTo box root r s) IsTablePointer
      r.call (placeOf s.mem root) s r.call.first n s' → GetsTo box root r s n := by
    intro n s' hn hmapped
    rw [r.call_limit] at hn
    rw [r.call_first] at hmapped
    exact getsTo_of_mapped hs hmeets hn hmapped
  -- also a call that fails has only followed pointers to tables until then
  rcases createMapping_spec hs hrisk (fun _ h => h) (fun _ => isTablePointer_pointer) with
    ⟨s', hrun, -, -, own', hs', hmaps⟩ | ⟨e, s', hrun, m, hm, ⟨-, -, own', hs', hmaps⟩, -⟩
  · have hcall : createMapping box r.virtStart r.virtEnd r.phys r.attr root s = .ok () s' := hrun
    rw [Method.stateAfter_of_ok hcall]
    rw [r.call_first, r.call_limit] at hmaps
    exact framed_of_maps htree le_rfl hs hs' hmaps
  · have hcall : createMapping box r.virtStart r.virtEnd r.phys r.attr root s = .error e s' := hrun
    rw [Method.stateAfter_of_error hcall]
    rw [r.call_limit] at hm
    rw [r.call_first] at hmaps
    exact framed_of_maps htree hm.le hs hs' hmaps

end PML4

end Mushix
