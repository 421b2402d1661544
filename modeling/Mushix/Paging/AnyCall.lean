import Mushix.Paging.LastMapping

/-!
# Calls of `create_mapping` that fail

A call may be refused: its physical address is not aligned, or `phys + addr` overflows. The tables
are those that `PML4::new()` and calls with any arguments leave behind, also calls that failed.

* `Built`: these tables;
* `Built.ownTree`: they form a tree that the program built;
* `PML4.createMapping_err_iff`: which calls in the lower half return `Err`, and that they change no
  translation;
* `PML4.createMapping_maps_iff`: which calls in either half map their range.
-/

namespace Mushix

open PML4 (createMapping OwnTree OwnPointer)

/-- The memory that `PML4::new()` and calls of `create_mapping` on the new table leave behind,
whatever their arguments are and however they end. Before, `Box::new` was called `base` times. -/
inductive Built (box : BoxSource) (root base : ℕ) : TableMemory → Prop where
  | new {s s' : TableMemory} (hbase : s.boxes = base) (hrun : PML4.new box s = .ok root s') :
      Built box root base s'
  | createMapping {s : TableMemory} (h : Built box root base s) (virtStart virtEnd phys : ℕ)
      (attr : PageAttr) :
      Built box root base ((createMapping box virtStart virtEnd phys attr root).stateAfter s)

/-- From `s` to `s'` no translation changed. The entries that are in use and the entries of page
tables are what they were, and a page table that was added is empty. -/
structure Untouched (root : ℕ) (s s' : TableMemory) : Prop where
  translations : ∀ va, translate s'.mem root va = translate s.mem root va
  kept : ∀ {t h q i}, Reaches s.mem root t h q → i < 512 →
    h = 0 ∨ Present (s.mem (t + 8 * i)) → s'.mem (t + 8 * i) = s.mem (t + 8 * i)
  added : ∀ {t q i}, Reaches s'.mem root t 0 q → i < 512 → Present (s'.mem (t + 8 * i)) →
    Reaches s.mem root t 0 q

/-! ## Calls with any arguments -/

section Grows

variable {box : BoxSource} {root base : ℕ} {own own' : Owners} {s s' : TableMemory}
  {h virtStart virtEnd phys : ℕ} {attr : PageAttr} {inner : ℕ → ℕ → Method TableMemory ℕ}

variable (box root base) in
/-- The memory holds a tree that the program built, in which the tables of `own` have their
places. -/
def Grown (own : Owners) (s : TableMemory) : Prop :=
  ∃ own', OwnTree box root base own' s ∧ ∀ {t r}, own t = some r → own' t = some r

variable (box root base) in
/-- Run in a table of height `h`, the code keeps a tree that the program built. -/
def Grows (h : ℕ) (code : ℕ → Method TableMemory ℕ) : Prop :=
  ∀ own s t q, OwnTree box root base own s → own t = some (h, q) →
    Grown box root base own ((code t).stateAfter s)

/-- Nothing has grown before the first step. -/
theorem Grown.refl (hs : OwnTree box root base own s) : Grown box root base own s :=
  ⟨own, hs, id⟩

/-- What is kept at each of two steps is kept. -/
theorem Grown.trans (hkept : ∀ {t r}, own t = some r → own' t = some r)
    (h : Grown box root base own' s) : Grown box root base own s := by
  obtain ⟨own'', hs, hkept'⟩ := h
  exact ⟨own'', hs, fun ht => hkept' (hkept ht)⟩

namespace PML4

/-- An index selects one of the 512 entries. -/
theorem calcIndex_lt (level addr : ℕ) : Table.calcIndex level addr < 512 := by
  have hmask : 0b111111111 = 2 ^ 9 - 1 := rfl
  rw [Table.calcIndex, hmask, Nat.and_two_pow_sub_one_eq_mod]
  exact Nat.mod_lt _ (by decide)

/-- A loop keeps the tree when its body does, for every index. -/
theorem indexLoop_grows (virtEnd level : ℕ) {body : ℕ → ℕ → ℕ → Method TableMemory ℕ}
    (hbody : ∀ index < 512, ∀ addr, Grows box root base h fun t => body t index addr)
    (fuel addr : ℕ) :
    Grows box root base h fun t => indexLoop virtEnd level (body t) fuel addr := by
  intro own s t q hs ht
  induction fuel generalizing own s addr with
  | zero => exact .refl hs
  | succ fuel ih =>
    have hstep := hbody _ (calcIndex_lt level addr) addr own s t q hs ht
    show Grown box root base own
      ((indexLoop virtEnd level (body t) (fuel + 1) addr).stateAfter s)
    rw [indexLoop]
    cases hrun : body t (Table.calcIndex level addr) addr s with
    | ok addr' s' =>
      rw [Method.stateAfter_of_ok hrun] at hstep
      rw [Method.stateAfter_bind_of_ok hrun]
      obtain ⟨own', hs', hkept⟩ := hstep
      split
      · exact ⟨own', hs', hkept⟩
      · exact .trans hkept (ih addr' own' s' hs' (hkept ht))
    | error e s' =>
      rw [Method.stateAfter_of_error hrun] at hstep
      rwa [Method.stateAfter_of_error (Method.bind_of_error hrun)]

/-- The innermost loop sets an entry or changes nothing. -/
theorem mapPage_stateAfter (t i addr : ℕ) (s : TableMemory) :
    (mapPage virtStart phys attr t i addr).stateAfter s = s ∨
      ∃ value, (mapPage virtStart phys attr t i addr).stateAfter s =
        Entry.pageSet (t + 8 * i) value s := by
  rw [mapPage, Usize.add]
  split
  case isFalse => exact .inl rfl
  case isTrue =>
    rw [pure_bind, Usize.sub]
    split
    case isFalse => exact .inl rfl
    case isTrue =>
      rw [pure_bind, Entry.setPage]
      split
      case isTrue => exact .inl rfl
      case isFalse => exact .inr ⟨_, rfl⟩

/-- A page table gets its last level, or the fault leaves it as it was. -/
theorem mapPage_grows {i : ℕ} (hi : i < 512) (addr : ℕ) :
    Grows box root base 0 fun t => mapPage virtStart phys attr t i addr := by
  intro own s t q hs ht
  rcases mapPage_stateAfter t i addr s with hsame | ⟨value, hset⟩
  · rw [hsame]
    exact .refl hs
  · have hpte : Function.const ℕ value (512 * q + i) = value := rfl
    obtain ⟨hs', hmaps⟩ := setPage_spec hs.shape ht hi hpte
    rw [hset]
    exact ⟨own, hs.of_maps hs' hmaps, id⟩

/-- One entry of a table that is no page table, by its inner table. -/
theorem enterTable_grows (hinner : ∀ addr, Grows box root base h fun t => inner t addr) {i : ℕ}
    (hi : i < 512) (addr : ℕ) :
    Grows box root base (h + 1) fun t => enterTable box inner t i addr := by
  intro own s t q hs ht
  -- any page that the entry is responsible for
  have hn : (512 * q + i) * 512 ^ (h + 1) / 512 ^ (h + 1) = 512 * q + i :=
    Nat.mul_div_cancel _ (by positivity)
  rcases enter_spec hs.shape ht hi trivial hn (fun _ h => h.1) (fun _ => ownPointer_pointer)
    (fun _ => 0) inner addr with ⟨own', s', c, hs', hmaps, hc, hrun⟩ | ⟨-, -, hrun⟩
  · have hgrown := hinner addr own' s' c _ (hs.of_maps hs' hmaps) hc
    have hafter : (enterTable box inner t i addr).stateAfter s = (inner c addr).stateAfter s' := by
      rw [Method.stateAfter, hrun, Method.stateAfter]
    rw [hafter]
    exact .trans hmaps.kept hgrown
  · rw [Method.stateAfter_of_error hrun]
    exact .refl hs

/-- The loop of a table that is no page table, by its inner tables. -/
theorem tableLoop_grows (virtEnd level : ℕ)
    (hinner : ∀ addr, Grows box root base h fun t => inner t addr) (addr : ℕ) :
    Grows box root base (h + 1) fun t => tableLoop box virtEnd level inner t addr :=
  indexLoop_grows virtEnd level (fun _ hi addr => enterTable_grows hinner hi addr) 512 addr

/-- Whatever a call answers, the tree has only grown. -/
theorem createMapping_grows (hs : OwnTree box root base own s) :
    Grown box root base own
      ((createMapping box virtStart virtEnd phys attr root).stateAfter s) := by
  have hpages : ∀ addr, Grows box root base 0 fun t =>
      pageLoop virtStart virtEnd phys attr t addr :=
    indexLoop_grows virtEnd 1 (fun _ hi addr => mapPage_grows hi addr) 512
  have htables := tableLoop_grows virtEnd 2 hpages
  have hdirectories := tableLoop_grows virtEnd 3 htables
  have hloop := tableLoop_grows virtEnd 4 hdirectories virtStart own s root 0 hs
    hs.shape.owns_root
  cases hrun : tableLoop box virtEnd 4 (tableLoop box virtEnd 3 (tableLoop box virtEnd 2
    (pageLoop virtStart virtEnd phys attr))) root virtStart s with
  | ok addr s' =>
    rw [Method.stateAfter_of_ok hrun] at hloop
    rw [createMapping, Method.stateAfter_bind_of_ok hrun]
    exact hloop
  | error e s' =>
    rw [Method.stateAfter_of_error hrun] at hloop
    rw [createMapping, Method.stateAfter_of_error (Method.bind_of_error hrun)]
    exact hloop

end PML4

end Grows

variable {box : BoxSource} {root base : ℕ} {s : TableMemory}

/-- The tables form a tree that the program built. -/
theorem Built.ownTree (h : Built box root base s) : ∃ own, OwnTree box root base own s := by
  induction h with
  | @new s s' hbase hrun =>
    by_cases hbox : s.boxes < box.supply
    · obtain ⟨own, s₀, hnew, hs, -⟩ := PML4.ownTree_new hbox
      cases hrun.symm.trans hnew
      exact ⟨own, hbase ▸ hs⟩
    · rw [PML4.new, Entry.run_newZeroed_exhausted hbox] at hrun
      cases hrun
  | createMapping _ _ _ _ _ ih =>
    obtain ⟨own, hs⟩ := ih
    obtain ⟨own', hs', -⟩ := PML4.createMapping_grows hs
    exact ⟨own', hs'⟩

/-! ## Calls that return `Err` -/

section Places

variable {AtRisk : ℕ → Prop} {Upper : BitVec 64 → Prop} {own own' : Owners} {s' : TableMemory}
  {t h q : ℕ}

/-- The places of the tables are the ones the processor finds. -/
theorem Shape.reaches_iff (hs : Shape box root AtRisk Upper own s) :
    Reaches s.mem root t h q ↔ own t = some (h, q) := by
  constructor
  · intro hreach
    induction hreach with
    | root => exact hs.owns_root
    | child _ index present pointer ih => exact hs.child ih index present pointer
  · intro ht
    -- by induction on the distance to the root: every other table is linked from the one above it
    obtain ⟨k, hk⟩ := Nat.exists_eq_add_of_le (hs.top ht).1
    induction k generalizing t h q with
    | zero =>
      obtain rfl : h = 3 := hk.symm
      obtain ⟨rfl, rfl⟩ := (hs.top ht).2 rfl
      exact .root
    | succ k ih =>
      obtain ⟨p, hp, hpresent, hlarge, rfl⟩ := hs.linked ht (by omega)
      have hreach := Reaches.child (ih hp (by omega)) (Nat.mod_lt q (by decide)) hpresent hlarge
      rwa [Nat.div_add_mod] at hreach

/-- Where no page was mapped, nothing was touched. -/
theorem Untouched.of_maps {pte : ℕ → BitVec 64} {a : ℕ} (hs : Shape box root AtRisk Upper own s)
    (hs' : Shape box root AtRisk Upper own' s')
    (hmaps : Maps box AtRisk Upper pte own own' s s' a a)
    (htranslate : ∀ va, translate s'.mem root va = translate s.mem root va) :
    Untouched root s s' where
  translations := htranslate
  kept {t h q i} hreach hi hused := by
    have ht := hs.reaches_iff.1 hreach
    cases h with
    | zero => exact hmaps.page_kept ht hi (Nat.lt_or_ge _ _)
    | succ h =>
      exact hmaps.upper_kept ht hi (hused.resolve_left (Nat.succ_ne_zero h))
  added {t q i} hreach hi hp := by
    have ht' := hs'.reaches_iff.1 hreach
    cases ht : own t with
    | none => exact absurd hp (hmaps.page_new ht ht' hi (Nat.lt_or_ge _ _))
    | some r =>
      obtain rfl : r = (0, q) := Option.some.inj ((hmaps.kept ht).symm.trans ht')
      exact hs.reaches_iff.2 ht

end Places

namespace MapCall

variable {r : MapCall} {n : ℕ}

/-- The pages of a call begin inside its range. -/
theorem address_lt_end (hn : n < r.limit) : r.address n < r.virtEnd := by
  rw [← Nat.not_le, end_le_iff]
  omega

end MapCall

namespace PML4

variable {virtStart virtEnd phys : ℕ}

/-- For tables that `PML4::new()` and any calls left behind, and a call for a range in the lower
half whose physical addresses lie below `2 ^ 52`: it returns `Err` exactly when the physical
address is not aligned, unless `Box::new` has run out of pages on the way. A call that returns `Err`
changes no translation. -/
theorem createMapping_err_iff (hs : Built box root base s) (attr : PageAttr)
    (hlt : virtStart < virtEnd) (hend : virtEnd ≤ 2 ^ 47)
    (hphys : phys + (virtEnd - virtStart) ≤ 2 ^ 52) :
    let run := createMapping box virtStart virtEnd phys attr root s
    ((∃ s', run = .error outOfMemory s' ∧ box.supply ≤ s'.boxes) ∨
      ((∃ msg s', run = .error (.err msg) s') ↔ phys % 4096 ≠ 0)) ∧
    ∀ msg s', run = .error (.err msg) s' → Untouched root s s' := by
  intro run
  obtain ⟨own, htree⟩ := hs.ownTree
  let r : MapCall := ⟨virtStart, virtEnd, phys, attr, hlt, .inl hend⟩
  have hset : ∀ n, r.refusal n = none → phys % 4096 = 0 := fun n h =>
    (MapCall.refusal_eq_none_iff.1 h).2
  rcases htree.createMapping_cases r with ⟨own', s', hrun, -, hmapped⟩ |
    ⟨own', e, s', m, hrun, htree', hm, hmapped, hstop⟩
  · have hrun : run = .ok () s' := hrun
    have haligned := hset r.first (hmapped.2.1 _ le_rfl r.first_lt_limit)
    simp [hrun, haligned]
  have hrun : run = .error e s' := hrun
  rcases hstop with hrefusal | ⟨rfl, hsupply⟩
  case inr =>
    refine ⟨.inl ⟨s', hrun, hsupply⟩, fun msg s'' hmsg => ?_⟩
    cases hrun.symm.trans hmsg
  -- the sum does not overflow, so the page was refused because of its alignment
  have hunaligned : phys % 4096 ≠ 0 := by
    intro haligned
    have haddress : r.address m < virtEnd := MapCall.address_lt_end hm
    have hnone : r.refusal m = none := by
      refine MapCall.refusal_eq_none_iff.2 ⟨?_, haligned⟩
      show phys + r.address m < 2 ^ 64
      omega
    rw [hnone] at hrefusal
    cases hrefusal
  have herr : e = .err "phys is not aligned" := by
    have haddress : r.address m < virtEnd := MapCall.address_lt_end hm
    rw [MapCall.refusal, if_neg (show ¬2 ^ 64 ≤ phys + r.address m by omega),
      if_pos hunaligned] at hrefusal
    exact (Option.some.inj hrefusal).symm
  refine ⟨.inr (iff_of_true ⟨_, s', herr ▸ hrun⟩ hunaligned), fun msg s'' hmsg => ?_⟩
  cases hrun.symm.trans hmsg
  -- a page that was mapped before would have been refused in the same way
  obtain ⟨hle, hbefore, own'', hs'', hmaps⟩ := id hmapped
  obtain rfl : m = r.first := by
    by_contra hne
    exact hunaligned (hset r.first (hbefore r.first le_rfl (by omega)))
  refine .of_maps htree.shape hs'' hmaps fun va => ?_
  rw [hmapped.translate_eq htree.shape (fun n hlo hhi => by omega), if_neg (by omega)]

/-- A new table, which `Box::new` puts at `0x1000`. -/
def newTable : TableMemory where
  mem := TableMemory.zeroPage (fun _ => 0) 0x1000
  boxes := 1
  written := [⟨0x1000, 0x2000⟩]

/-- A new table is a tree that nothing was mapped in. -/
theorem built_newTable : Built .consecutive 0x1000 0 newTable :=
  .new (s := ⟨fun _ => 0, 0, []⟩) rfl (Entry.run_newZeroed (by decide))

/-- A call for two bytes in two pages. -/
theorem createMapping_err_iff_twoBytes :
    let run := createMapping BoxSource.consecutive 0xFFF 0x1001 0x10FFF .readWriteIo 0x1000 newTable
    ((∃ s', run = .error outOfMemory s' ∧ BoxSource.consecutive.supply ≤ s'.boxes) ∨
      ((∃ msg s', run = .error (.err msg) s') ↔ 0x10FFF % 4096 ≠ 0)) ∧
    ∀ msg s', run = .error (.err msg) s' → Untouched 0x1000 newTable s' :=
  createMapping_err_iff built_newTable .readWriteIo (by decide) (by decide) (by decide)

/-! ## Calls that overflow -/

/-- What the range is translated to. -/
def rangeTranslation (virtStart phys : ℕ) (attr : PageAttr) (va : ℕ) : Option Translation :=
  if attr = .notPresent then
    none
  else
    let pointer := PageAttr.readWriteKernel.toU64
    some { phys := phys + (va - virtStart), flags := [pointer, pointer, pointer, attr.toU64] }

/-- The call returns, and every address of the range is translated as the call asks for. -/
def MapsRange (box : BoxSource) (root virtStart virtEnd phys : ℕ) (attr : PageAttr)
    (s : TableMemory) : Prop :=
  ∃ s', createMapping box virtStart virtEnd phys attr root s = .ok () s' ∧
    ∀ va, virtStart ≤ va → va < virtEnd →
      translate s'.mem root va = rangeTranslation virtStart phys attr va

section Aligned

variable {r : MapCall} {n va : ℕ}

/-- The last page of a range that is aligned. -/
theorem address_last (hstart : r.virtStart % 4096 = 0) (hend : r.virtEnd % 4096 = 0) :
    r.address (r.limit - 1) = r.virtEnd - 4096 := by
  have hlt := r.start_lt_end
  have hfirst := r.address_first
  rw [MapCall.address] at hfirst
  rw [MapCall.address, MapCall.limit]
  omega

/-- Without an overflow at the last page no page of an aligned call is refused. -/
theorem refusal_eq_none (hstart : r.virtStart % 4096 = 0) (hend : r.virtEnd % 4096 = 0)
    (hphys : r.phys % 4096 = 0) (hfit : r.phys + (r.virtEnd - 4096) < 2 ^ 64) (hn : n < r.limit) :
    r.refusal n = none := by
  have hlast := address_last hstart hend
  refine MapCall.refusal_eq_none_iff.2 ⟨?_, hphys⟩
  rw [MapCall.address] at hlast ⊢
  omega

/-- The pages of an aligned range contain its addresses and no others. -/
theorem translation_of_mem (hstart : r.virtStart % 4096 = 0) (hlo : r.virtStart ≤ va)
    (hhi : va < r.virtEnd) :
    (r.first ≤ va % 2 ^ 48 / 4096 ∧ va % 2 ^ 48 / 4096 < r.limit) ∧
      r.translation va = rangeTranslation r.virtStart r.phys r.attr va := by
  have hfirst := r.address_first
  rw [MapCall.address] at hfirst
  -- an address and its page number differ by the bits that sign-extend it
  have hpage : 4096 * (va % 2 ^ 48 / 4096) + r.shift + va % 4096 = va := by
    rw [MapCall.shift, MapCall.first] at hfirst ⊢
    rcases r.one_half with hlow | ⟨hhigh, htop⟩ <;> omega
  have hphys : r.target (va % 2 ^ 48 / 4096) + va % 4096 = r.phys + (va - r.virtStart) := by
    rw [MapCall.target, MapCall.address]
    omega
  refine ⟨⟨by omega, ?_⟩, ?_⟩
  · rw [MapCall.limit]
    omega
  · rw [MapCall.translation, rangeTranslation, hphys]

end Aligned

/-- For tables that `PML4::new()` and any calls left behind, and a call for an aligned range in
either half whose physical addresses are aligned and lie below `2 ^ 52`: it maps the range exactly
when the physical address and the address of the last page have a sum below `2 ^ 64`, unless
`Box::new` has run out of pages on the way. -/
theorem createMapping_maps_iff (hs : Built box root base s) (attr : PageAttr)
    (hstart : virtStart % 4096 = 0) (hend : virtEnd % 4096 = 0) (hlt : virtStart < virtEnd)
    (hhalf : virtEnd ≤ 2 ^ 47 ∨ 2 ^ 64 - 2 ^ 47 ≤ virtStart ∧ virtEnd < 2 ^ 64)
    (hphys : phys % 4096 = 0) (hrange : phys + (virtEnd - virtStart) ≤ 2 ^ 52) :
    (∃ s', createMapping box virtStart virtEnd phys attr root s = .error outOfMemory s' ∧
      box.supply ≤ s'.boxes) ∨
    (MapsRange box root virtStart virtEnd phys attr s ↔ phys + (virtEnd - 4096) < 2 ^ 64) := by
  obtain ⟨own, htree⟩ := hs.ownTree
  let r : MapCall := ⟨virtStart, virtEnd, phys, attr, hlt, hhalf.imp_right fun h => ⟨h.1, by omega⟩⟩
  rcases htree.createMapping_cases r with ⟨own', s', hrun, -, hmapped⟩ |
    ⟨own', e, s', m, hrun, -, hm, -, hrefusal | ⟨rfl, hsupply⟩⟩
  -- all pages were mapped, also the last one
  · have hlast := hmapped.2.1 (r.limit - 1) (Nat.le_sub_one_of_lt r.first_lt_limit)
      (Nat.sub_lt (Nat.zero_lt_of_lt r.first_lt_limit) Nat.one_pos)
    have hfit := (MapCall.refusal_eq_none_iff.1 hlast).1
    rw [address_last hstart hend] at hfit
    have htarget : ∀ n, r.first ≤ n → n < r.limit → r.target n + 4096 ≤ 2 ^ 52 := by
      intro n hlo hhi
      have hn : r.address n < virtEnd := MapCall.address_lt_end hhi
      have hfirst : r.address r.first = virtStart := r.address_first
      rw [MapCall.target_eq hlo]
      show phys + 4096 * (n - r.first) + 4096 ≤ 2 ^ 52
      rw [MapCall.address] at hn hfirst
      omega
    refine .inr (iff_of_true ⟨s', hrun, fun va hlo hhi => ?_⟩ hfit)
    obtain ⟨hmem, htranslation⟩ := translation_of_mem (r := r) hstart hlo hhi
    rw [hmapped.translate_eq htree.shape htarget, if_pos hmem, htranslation]
  -- a page was refused, and without an overflow none is
  · refine .inr (iff_of_false ?_ fun hfit => ?_)
    · rintro ⟨s'', hok, -⟩
      cases hrun.symm.trans hok
    · rw [refusal_eq_none (r := r) hstart hend hphys hfit hm] at hrefusal
      cases hrefusal
  · exact .inl ⟨s', hrun, hsupply⟩

/-- The last page of the lower half, to the end of the physical memory. -/
theorem createMapping_maps_iff_lastPage :
    (∃ s', createMapping BoxSource.consecutive (2 ^ 47 - 4096) (2 ^ 47) (2 ^ 52 - 4096)
        .readWriteKernel 0x1000 newTable = .error outOfMemory s' ∧
      BoxSource.consecutive.supply ≤ s'.boxes) ∨
    (MapsRange .consecutive 0x1000 (2 ^ 47 - 4096) (2 ^ 47) (2 ^ 52 - 4096) .readWriteKernel
      newTable ↔ 2 ^ 52 - 4096 + (2 ^ 47 - 4096) < 2 ^ 64) :=
  createMapping_maps_iff built_newTable .readWriteKernel (by decide) (by decide) (by decide)
    (by decide) (by decide) (by decide)

/-- A page 2 GiB below the end of the address space, and the physical page at 2 GiB. -/
theorem not_mapsRange_upperHalf :
    ∃ s, Built .consecutive 0x1000 0 s ∧
      ∃ s', createMapping BoxSource.consecutive 0xFFFFFFFF80000000 0xFFFFFFFF80001000 0x80000000
        .readWriteKernel 0x1000 s = .error (.panic "attempt to add with overflow") s' := by
  obtain ⟨own, htree⟩ := built_newTable.ownTree
  let r : MapCall :=
    { virtStart := 0xFFFFFFFF80000000
      virtEnd := 0xFFFFFFFF80001000
      phys := 0x80000000
      attr := .readWriteKernel
      start_lt_end := by decide
      one_half := by decide }
  have hfirst : r.first = 0xFFFF80000 := by decide
  have hlimit : r.limit = 0xFFFF80001 := by decide
  -- `phys + addr` is `2 ^ 64` before `virt_start` is subtracted
  have hrefusal : r.refusal r.first = some (.panic "attempt to add with overflow") := by decide
  refine ⟨_, built_newTable, ?_⟩
  rcases htree.createMapping_cases r with ⟨-, s', -, -, -, hset, -⟩ |
    ⟨own', e, s', m, hrun, htree', hm, ⟨hle, -⟩, hstop | ⟨-, hsupply⟩⟩
  · rw [hset r.first le_rfl r.first_lt_limit] at hrefusal
    cases hrefusal
  · obtain rfl : m = r.first := by omega
    rw [hrefusal] at hstop
    cases hstop
    exact ⟨s', hrun⟩
  · exact absurd (htree'.supply_le hsupply) (by decide)

end PML4

end Mushix
