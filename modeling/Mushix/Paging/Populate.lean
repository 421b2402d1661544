import Mushix.Paging.Tree

/-!
# The methods of an entry

What `ensure_populated`, `table_mut` and `set_page` do to a tree of page tables.

* `enter_spec`: an entry above the page tables leads to a table afterwards, and no page was
  mapped (`Maps` with an empty range);
* `setPage_spec`: exactly one page was mapped.
-/

namespace Mushix

/-- How `Box::new` ends without a page left. -/
def outOfMemory : Fault := .panic "memory allocation of 4096 bytes failed"

namespace Entry

/-- The test of `set_page`. -/
theorem and_attrMask_eq_zero_iff {pa : ℕ} (hlt : pa < 2 ^ 64) :
    BitVec.ofNat 64 pa &&& attrMask = 0 ↔ pa % 4096 = 0 := by
  rw [show attrMask = BitField.lowMask 64 12 by decide,
    BitField.and_lowMask_eq_zero_iff (by decide), BitVec.toNat_ofNat, Nat.mod_eq_of_lt hlt]
  rfl

section InUse

variable {σ ρ : Type} [WordMemory σ] [TableSource ρ σ] {s : σ} {e : ℕ}

/-- `is_present` reads the entry and stores nothing. -/
theorem run_isPresent (e : ℕ) (s : σ) :
    isPresent e s = .ok (decide (Present (WordMemory.word s e))) s := by
  have hbit : (WordMemory.word s e &&& 1#64 <<< 0 != 0) =
      decide (Present (WordMemory.word s e)) := by
    have hone : 1#64 <<< 0 = BitField.lowMask 64 1 := by decide
    rw [Bool.eq_iff_iff, bne_iff_ne, decide_eq_true_iff, present_iff, hone, ne_eq,
      BitField.and_lowMask_eq_zero_iff (by decide)]
    omega
  exact congrArg (EStateM.Result.ok · s) hbit

/-- `table_mut` of an entry in use. -/
theorem run_tableMut (hp : Present (WordMemory.word s e)) :
    tableMut e s = .ok (WordMemory.word s e &&& ~~~attrMask).toNat s := by
  rw [tableMut, Method.bind_of_ok (run_isPresent e s), if_pos (decide_eq_true hp)]
  rfl

/-- `ensure_populated` leaves an entry in use as it is. -/
theorem run_ensurePopulated_present (box : ρ) (hp : Present (WordMemory.word s e)) :
    ensurePopulated box e s = .ok e s := by
  rw [ensurePopulated, Method.bind_of_ok (run_isPresent e s), if_pos (decide_eq_true hp)]
  rfl

omit [TableSource ρ σ] in
/-- `set_page` of a page-aligned address stores it with the attributes. -/
theorem setPage_of_aligned {pa : ℕ} (haligned : pa % 4096 = 0) (hlt : pa < 2 ^ 64)
    (attr : PageAttr) :
    (setPage e (BitVec.ofNat 64 pa) attr : Method σ Unit) =
      WordMemory.store e (BitVec.ofNat 64 pa ||| attr.toU64) := by
  rw [setPage, if_neg (not_not.2 ((and_attrMask_eq_zero_iff hlt).2 haligned))]

end InUse

variable {box : BoxSource} {s : TableMemory} {e : ℕ}

/-- The state after `populate`. -/
def populated (box : BoxSource) (e : ℕ) (s : TableMemory) : TableMemory :=
  let next := box.addr s.boxes
  { mem := Function.update (TableMemory.zeroPage s.mem next) e
      (BitVec.ofNat 64 next ||| PageAttr.readWriteKernel.toU64)
    boxes := s.boxes + 1
    written := ⟨e, e + 8⟩ :: ⟨next, next + 4096⟩ :: s.written }

/-- A new table is the next page of the pool, full of zeros. -/
theorem run_newZeroed (hbox : s.boxes < box.supply) :
    TableSource.newZeroed box s = .ok (box.addr s.boxes)
      { mem := TableMemory.zeroPage s.mem (box.addr s.boxes)
        boxes := s.boxes + 1
        written := ⟨box.addr s.boxes, box.addr s.boxes + 4096⟩ :: s.written } := by
  show TableMemory.newZeroed box s = _
  rw [TableMemory.newZeroed, Method.run_get_bind, if_pos hbox]
  rfl

/-- There is no new table when the pool is used up. -/
theorem run_newZeroed_exhausted (hbox : ¬s.boxes < box.supply) :
    TableSource.newZeroed box s = .error outOfMemory s := by
  show TableMemory.newZeroed box s = _
  rw [TableMemory.newZeroed, Method.run_get_bind, if_neg hbox]
  rfl

/-- `ensure_populated` lets any other entry point to a new table. -/
theorem run_ensurePopulated_absent (hp : ¬Present (s.mem e)) (hbox : s.boxes < box.supply) :
    ensurePopulated box e s = .ok e (populated box e s) := by
  have hfalse : ¬decide (Present (WordMemory.word s e)) = true := by
    rw [decide_eq_true_iff]
    exact hp
  rw [ensurePopulated, Method.bind_of_ok (run_isPresent e s), if_neg hfalse, populate,
    Method.bind_of_ok (run_isPresent e s), if_neg hfalse, Method.bind_of_ok (run_newZeroed hbox)]
  rfl

/-- The state after `set_page`. -/
def pageSet (e : ℕ) (value : BitVec 64) (s : TableMemory) : TableMemory :=
  { s with mem := Function.update s.mem e value, written := ⟨e, e + 8⟩ :: s.written }

/-- `set_page` of a page-aligned address. -/
theorem run_setPage {pa : ℕ} (haligned : pa % 4096 = 0) (hlt : pa < 2 ^ 64) (attr : PageAttr) :
    setPage e (BitVec.ofNat 64 pa) attr s =
      .ok () (pageSet e (BitVec.ofNat 64 pa ||| attr.toU64) s) := by
  rw [setPage_of_aligned haligned hlt]
  rfl

/-- `set_page` of any other address. -/
theorem run_setPage_unaligned {pa : ℕ} (hunaligned : pa % 4096 ≠ 0) (hlt : pa < 2 ^ 64)
    (attr : PageAttr) :
    setPage e (BitVec.ofNat 64 pa) attr s = .error (.err "phys is not aligned") s := by
  rw [setPage, if_pos fun hmask => hunaligned ((and_attrMask_eq_zero_iff hlt).1 hmask)]
  rfl

/-- Without a page left `ensure_populated` changes nothing. -/
theorem run_ensurePopulated_exhausted (hp : ¬Present (s.mem e)) (hbox : ¬s.boxes < box.supply) :
    ensurePopulated box e s = .error outOfMemory s := by
  have hfalse : ¬decide (Present (WordMemory.word s e)) = true := by
    rw [decide_eq_true_iff]
    exact hp
  rw [ensurePopulated, Method.bind_of_ok (run_isPresent e s), if_neg hfalse, populate,
    Method.bind_of_ok (run_isPresent e s), if_neg hfalse,
    Method.bind_of_error (run_newZeroed_exhausted hbox)]

end Entry

namespace PML4

open Entry (populated pageSet)

variable {box : BoxSource} {root : ℕ} {AtRisk : ℕ → Prop} {Upper : BitVec 64 → Prop}
  {own : Owners} {s : TableMemory} {t h q i : ℕ}

/-- The pointer to a new table. -/
def pointer (box : BoxSource) (k : ℕ) : BitVec 64 :=
  BitVec.ofNat 64 (box.addr k) ||| PageAttr.readWriteKernel.toU64

section Pointer

variable {k : ℕ} (hk : k < box.supply)

include hk

/-- A pointer leads to the page that was allocated. -/
theorem frame_pointer : frame (pointer box k) = box.addr k :=
  frame_entry (box.aligned k hk) (box.below k hk) (by decide)

theorem flags_pointer : flags (pointer box k) = PageAttr.readWriteKernel.toU64 :=
  flags_entry (box.aligned k hk) (box.below k hk) (by decide)

theorem present_pointer : Present (pointer box k) :=
  (present_entry (box.aligned k hk) (box.below k hk) (by decide)).2 (by decide)

theorem isTablePointer_pointer : IsTablePointer (pointer box k) := by
  have htoNat : (pointer box k).toNat = box.addr k + 3 :=
    toNat_entry (box.aligned k hk) (box.below k hk) (by decide)
  have haligned := box.aligned k hk
  have hbelow := box.below k hk
  refine ⟨?_, by omega⟩
  rw [large_iff]
  omega

end Pointer

section Populate

/-- The owners after an entry of a table was populated. -/
def ownNew (own : Owners) (box : BoxSource) (s : TableMemory) (h q i : ℕ) : Owners :=
  Function.update own (box.addr s.boxes) (some (h, 512 * q + i))

/-- The entry that was populated holds the pointer. -/
theorem populated_slot (box : BoxSource) (s : TableMemory) (e : ℕ) :
    (populated box e s).mem e = pointer box s.boxes :=
  Function.update_self _ _ _

/-- The page of a new table is in no table. -/
theorem new_ne (hs : Shape box root AtRisk Upper own s) (hbox : s.boxes < box.supply) {t : ℕ}
    {r : ℕ × ℕ} (ht : own t = some r) : t ≠ box.addr s.boxes := by
  rintro rfl
  rw [hs.fresh le_rfl hbox] at ht
  cases ht

/-- The tables that were there keep their places. -/
theorem ownNew_kept (hs : Shape box root AtRisk Upper own s) (hbox : s.boxes < box.supply) {t : ℕ}
    {r : ℕ × ℕ} (ht : own t = some r) : ownNew own box s h q i t = some r :=
  (Function.update_of_ne (new_ne hs hbox ht) _ _).trans ht

/-- There is one table more. -/
theorem ownNew_cases {t : ℕ} {r : ℕ × ℕ} (ht : ownNew own box s h q i t = some r) :
    t = box.addr s.boxes ∧ r = (h, 512 * q + i) ∨ own t = some r := by
  by_cases hne : t = box.addr s.boxes
  · subst hne
    rw [ownNew, Function.update_self] at ht
    exact .inl ⟨rfl, (Option.some.inj ht).symm⟩
  · rw [ownNew, Function.update_of_ne hne] at ht
    exact .inr ht

variable (hs : Shape box root AtRisk Upper own s) (hbox : s.boxes < box.supply)
  (ht : own t = some (h + 1, q)) (hi : i < 512)

include hs hbox ht hi

/-- A new table is empty. -/
theorem populated_new {j : ℕ} (hj : j < 512) :
    (populated box (t + 8 * i) s).mem (box.addr s.boxes + 8 * j) = 0 := by
  -- the pointer was stored to another table, so it is not among the zeros
  have hne : box.addr s.boxes + 8 * j ≠ t + 8 * i := fun heq =>
    new_ne hs hbox ht (entry_inj (hs.page ht).1 (box.aligned _ hbox) hi hj heq.symm).1
  have hin : box.addr s.boxes ≤ box.addr s.boxes + 8 * j ∧
      box.addr s.boxes + 8 * j < box.addr s.boxes + pageSize := by
    unfold pageSize
    omega
  exact (Function.update_of_ne hne _ _).trans (if_pos hin)

/-- Every other entry is as it was. -/
theorem populated_old {t' j : ℕ} {r : ℕ × ℕ} (ht' : own t' = some r) (hj : j < 512)
    (hne : ¬(t' = t ∧ j = i)) :
    (populated box (t + 8 * i) s).mem (t' + 8 * j) = s.mem (t' + 8 * j) := by
  have hslot : t' + 8 * j ≠ t + 8 * i := fun heq =>
    hne (entry_inj (hs.page ht').1 (hs.page ht).1 hj hi heq)
  have haligned := box.aligned s.boxes hbox
  have haligned' := (hs.page ht').1
  have hnew := new_ne hs hbox ht'
  have hout : ¬(box.addr s.boxes ≤ t' + 8 * j ∧
      t' + 8 * j < box.addr s.boxes + pageSize) := by
    unfold pageSize
    omega
  exact (Function.update_of_ne hslot _ _).trans (if_neg hout)

/-- An entry in use is an old one or the pointer to the new table. -/
theorem populated_cases {t' j : ℕ} {r : ℕ × ℕ} (ht' : ownNew own box s h q i t' = some r)
    (hj : j < 512) (hp : Present ((populated box (t + 8 * i) s).mem (t' + 8 * j))) :
    (t' = t ∧ j = i ∧ (populated box (t + 8 * i) s).mem (t' + 8 * j) = pointer box s.boxes) ∨
      own t' = some r ∧
        (populated box (t + 8 * i) s).mem (t' + 8 * j) = s.mem (t' + 8 * j) := by
  rcases ownNew_cases ht' with ⟨rfl, -⟩ | hold
  -- no entry of the new table is in use
  · rw [populated_new hs hbox ht hi hj] at hp
    exact absurd hp (by decide)
  by_cases heq : t' = t ∧ j = i
  · obtain ⟨rfl, rfl⟩ := heq
    exact .inl ⟨rfl, rfl, populated_slot box s _⟩
  · exact .inr ⟨hold, populated_old hs hbox ht hi hold hj heq⟩

variable (habsent : ¬Present (s.mem (t + 8 * i))) (hupper : Upper (pointer box s.boxes))

include habsent hupper

/-- With the new table the tree has its shape. -/
theorem shape_populated :
    Shape box root AtRisk Upper (ownNew own box s h q i) (populated box (t + 8 * i) s) := by
  have hkept : ∀ {t' r}, own t' = some r → ownNew own box s h q i t' = some r :=
    ownNew_kept hs hbox
  have hheight := (hs.top ht).1
  refine ⟨hkept hs.owns_root, ?_, ?_, ?_, ?_, ?_, ?_⟩
  · intro t' h' q' ht'
    rcases ownNew_cases ht' with ⟨-, hr⟩ | hold
    · cases hr
      exact ⟨by omega, by omega⟩
    · exact hs.top hold
  · intro t' r ht'
    rcases ownNew_cases ht' with ⟨rfl, -⟩ | hold
    · exact ⟨box.aligned _ hbox, box.below _ hbox⟩
    · exact hs.page hold
  · intro t' h' q' j ht' hj hp hl
    -- the one new entry leads to the new table, all others lead where they led
    rcases populated_cases hs hbox ht hi ht' hj hp with ⟨rfl, rfl, hnew⟩ | ⟨hold, hmem⟩
    · obtain ⟨rfl, rfl⟩ : h = h' ∧ q = q' := by
        have := (hkept ht).symm.trans ht'
        simpa using this
      rw [hnew, frame_pointer hbox]
      exact Function.update_self _ _ _
    · rw [hmem] at hp hl ⊢
      exact hkept (hs.child hold hj hp hl)
  · intro t' h' q' j n ht' hj hrisk hn hp
    rcases populated_cases hs hbox ht hi ht' hj hp with ⟨-, -, hnew⟩ | ⟨hold, hmem⟩
    · rwa [hnew]
    · rw [hmem] at hp ⊢
      exact hs.upper hold hj hrisk hn hp
  · intro t' h' q' ht' hlt
    rcases ownNew_cases ht' with ⟨rfl, hr⟩ | hold
    · cases hr
      refine ⟨t, ?_, ?_⟩
      · rw [show (512 * q + i) / 512 = q by omega]
        exact hkept ht
      · rw [show (512 * q + i) % 512 = i by omega, populated_slot, frame_pointer hbox]
        exact ⟨present_pointer hbox, (isTablePointer_pointer hbox).1, rfl⟩
    · obtain ⟨p, hp, hpresent, hpointer⟩ := hs.linked hold hlt
      -- the pointer to an old table is in use, so it is not the entry that was populated
      have hmem := populated_old hs hbox ht hi hp (Nat.mod_lt q' (by decide : 0 < 512)) (by
        rintro ⟨rfl, heq⟩
        rw [heq] at hpresent
        exact habsent hpresent)
      exact ⟨p, hkept hp, by rw [hmem]; exact ⟨hpresent, hpointer⟩⟩
  · intro k hk hlt
    have hne : box.addr k ≠ box.addr s.boxes := fun heq => by
      have hk : s.boxes + 1 ≤ k := hk
      have := box.fresh k hlt s.boxes hbox heq
      omega
    rw [ownNew, Function.update_of_ne hne]
    exact hs.fresh (Nat.le_of_succ_le hk) hlt

/-- Populating an entry maps no page. -/
theorem maps_populated (pte : ℕ → BitVec 64) {a : ℕ} (hrisk : AtRisk a)
    (ha : a / 512 ^ (h + 1) = 512 * q + i) :
    Maps box AtRisk Upper pte own (ownNew own box s h q i) s (populated box (t + 8 * i) s) a a where
  boxes_le := Nat.le_succ _
  boxes_le_supply := le_max_of_le_right hbox
  kept := ownNew_kept hs hbox
  new {t'} hnone hsome := by
    obtain ⟨r, hr⟩ := Option.ne_none_iff_exists'.1 hsome
    rcases ownNew_cases hr with ⟨rfl, -⟩ | hold
    · exact ⟨s.boxes, le_rfl, Nat.lt_succ_self _, rfl⟩
    · rw [hold] at hnone
      cases hnone
  boxed {k} hlo hhi := by
    have hhi : k < s.boxes + 1 := hhi
    obtain rfl : k = s.boxes := by omega
    rw [ownNew, Function.update_self]
    simp
  place {t' _ _} hnone hsome := by
    rcases ownNew_cases hsome with ⟨-, hr⟩ | hold
    · cases hr
      exact ⟨a, le_rfl, le_rfl, hrisk, ha⟩
    · rw [hold] at hnone
      cases hnone
  upper_kept {t' h' q' j} ht' hj hp := by
    refine populated_old hs hbox ht hi ht' hj ?_
    rintro ⟨rfl, rfl⟩
    exact habsent hp
  upper_new {t' h' q' j} ht' hj hp := by
    rcases populated_cases hs hbox ht hi ht' hj hp with ⟨-, -, hnew⟩ | ⟨hold, hmem⟩
    · rw [hnew]
      exact .inr hupper
    · rw [hmem] at hp
      exact .inl ⟨hold, hp⟩
  page_kept {t' q' j} ht' hj _ := by
    refine populated_old hs hbox ht hi ht' hj ?_
    rintro ⟨rfl, rfl⟩
    rw [ht] at ht'
    cases ht'
  page_new {t' q' j} hnone ht' hj _ := by
    rcases ownNew_cases ht' with ⟨rfl, -⟩ | hold
    · rw [populated_new hs hbox ht hi hj]
      decide
    · rw [hold] at hnone
      cases hnone
  mapped hlo hhi := by omega
  outside {x} hout := by
    have hroot := hout t (by rw [ownNew_kept hs hbox ht]; simp)
    have hnew := hout (box.addr s.boxes) (by rw [ownNew, Function.update_self]; simp)
    have hne : x ≠ t + 8 * i := by omega
    exact (Function.update_of_ne hne _ _).trans (if_neg hnew)
  written := by
    -- two stores: the page of zeros and the pointer to it
    refine ⟨[⟨t + 8 * i, t + 8 * i + 8⟩, ⟨box.addr s.boxes, box.addr s.boxes + 4096⟩], rfl, ?_⟩
    intro w hw
    rcases List.mem_cons.1 hw with rfl | hw
    · refine ⟨t, by rw [ownNew_kept hs hbox ht]; simp, Nat.le_add_right _ _, ?_⟩
      show t + 8 * i + 8 ≤ t + 4096
      omega
    · obtain rfl := List.mem_singleton.1 hw
      exact ⟨box.addr s.boxes, by rw [ownNew, Function.update_self]; simp, le_rfl, le_rfl⟩

end Populate

/-- `enter_table` goes on in the table that an entry in use leads to. -/
theorem enterTable_present {σ ρ : Type} [WordMemory σ] [TableSource ρ σ] (box : ρ)
    (inner : ℕ → ℕ → Method σ ℕ) {s : σ} {t i addr : ℕ}
    (hp : Present (WordMemory.word s (t + 8 * i))) :
    enterTable box inner t i addr s =
      inner (WordMemory.word s (t + 8 * i) &&& ~~~attrMask).toNat addr s := by
  rw [enterTable, Table.entry, Method.bind_of_ok (Entry.run_ensurePopulated_present box hp),
    Method.bind_of_ok (Entry.run_tableMut hp)]

/-- `enter_table` goes on in the table that an entry in use leads to, else in a new table. -/
theorem enterTable_cases (box : BoxSource) (inner : ℕ → ℕ → Method TableMemory ℕ) (t i addr : ℕ)
    (s : TableMemory) :
    (Present (s.mem (t + 8 * i)) ∧
      enterTable box inner t i addr s = inner (s.mem (t + 8 * i) &&& ~~~attrMask).toNat addr s) ∨
    (¬Present (s.mem (t + 8 * i)) ∧ s.boxes < box.supply ∧ enterTable box inner t i addr s =
      inner (box.addr s.boxes) addr (populated box (t + 8 * i) s)) ∨
    (¬Present (s.mem (t + 8 * i)) ∧ box.supply ≤ s.boxes ∧
      enterTable box inner t i addr s = .error outOfMemory s) := by
  by_cases hp : Present (s.mem (t + 8 * i))
  · exact .inl ⟨hp, enterTable_present box inner hp⟩
  by_cases hbox : s.boxes < box.supply
  -- `table_mut` reads the entry again, which is the pointer now
  · have hpointer : WordMemory.word (populated box (t + 8 * i) s) (t + 8 * i) =
        pointer box s.boxes := populated_slot box s (t + 8 * i)
    have hp' : Present (WordMemory.word (populated box (t + 8 * i) s) (t + 8 * i)) := by
      rw [hpointer]
      exact present_pointer hbox
    refine .inr (.inl ⟨hp, hbox, ?_⟩)
    rw [enterTable, Table.entry, Method.bind_of_ok (Entry.run_ensurePopulated_absent hp hbox),
      Method.bind_of_ok (Entry.run_tableMut hp'), hpointer,
      toNat_and_not_attrMask (isTablePointer_pointer hbox).2, frame_pointer hbox]
  · refine .inr (.inr ⟨hp, Nat.le_of_not_lt hbox, ?_⟩)
    rw [enterTable, Table.entry,
      Method.bind_of_error (Entry.run_ensurePopulated_exhausted hp hbox)]

/-- An entry above the page tables is entered: afterwards it leads to a table, unless there is
no page left for one. -/
theorem enter_spec (hs : Shape box root AtRisk Upper own s) (ht : own t = some (h + 1, q))
    (hi : i < 512) {n : ℕ} (hrisk : AtRisk n) (hn : n / 512 ^ (h + 1) = 512 * q + i)
    (hupper : ∀ e, Upper e → IsTablePointer e) (hpointer : ∀ k < box.supply, Upper (pointer box k))
    (pte : ℕ → BitVec 64) (inner : ℕ → ℕ → Method TableMemory ℕ) (addr : ℕ) :
    (∃ own' s' c, Shape box root AtRisk Upper own' s' ∧
      Maps box AtRisk Upper pte own own' s s' n n ∧ own' c = some (h, 512 * q + i) ∧
      enterTable box inner t i addr s = inner c addr s') ∨
    (¬Present (s.mem (t + 8 * i)) ∧ box.supply ≤ s.boxes ∧
      enterTable box inner t i addr s = .error outOfMemory s) := by
  rcases enterTable_cases box inner t i addr s with ⟨hp, hrun⟩ | ⟨hp, hbox, hrun⟩ | hrun
  · obtain ⟨hlarge, hlow⟩ := hupper _ (hs.upper ht hi hrisk hn hp)
    -- the entry in use is a plain pointer, so what is left of it is the address of its table
    rw [toNat_and_not_attrMask hlow] at hrun
    exact .inl ⟨own, s, frame (s.mem (t + 8 * i)), hs, .refl box AtRisk Upper pte own s n,
      hs.child ht hi hp hlarge, hrun⟩
  · exact .inl ⟨ownNew own box s h q i, populated box (t + 8 * i) s, box.addr s.boxes,
      shape_populated hs hbox ht hi hp (hpointer _ hbox),
      maps_populated hs hbox ht hi hp (hpointer _ hbox) pte hrisk hn, Function.update_self _ _ _,
      hrun⟩
  · exact .inr hrun

/-- `set_page` in a page table maps one page. -/
theorem setPage_spec (hs : Shape box root AtRisk Upper own s) (ht : own t = some (0, q))
    (hi : i < 512) {pte : ℕ → BitVec 64} {value : BitVec 64} (hpte : pte (512 * q + i) = value) :
    Shape box root AtRisk Upper own (pageSet (t + 8 * i) value s) ∧
      Maps box AtRisk Upper pte own own s (pageSet (t + 8 * i) value s) (512 * q + i)
        (512 * q + i + 1) := by
  let s' := pageSet (t + 8 * i) value s
  have hslot : s'.mem (t + 8 * i) = value := Function.update_self _ _ _
  -- the store changes one word, and no other entry is at this word
  have hother : ∀ {t' r j}, own t' = some r → j < 512 → ¬(t' = t ∧ j = i) →
      s'.mem (t' + 8 * j) = s.mem (t' + 8 * j) := by
    intro t' r j ht' hj hne
    have hne' : t' + 8 * j ≠ t + 8 * i := fun heq =>
      hne (entry_inj (hs.page ht').1 (hs.page ht).1 hj hi heq)
    exact Function.update_of_ne hne' _ _
  have hupper : ∀ {t' h q' j}, own t' = some (h + 1, q') → j < 512 →
      s'.mem (t' + 8 * j) = s.mem (t' + 8 * j) := by
    intro t' h q' j ht' hj
    refine hother ht' hj ?_
    rintro ⟨rfl, -⟩
    rw [ht] at ht'
    cases ht'
  refine ⟨hs.congr rfl hupper, ?_⟩
  · refine ⟨le_rfl, le_max_left _ _, id, fun h h' => absurd h h',
      fun hlo hhi => absurd hhi (Nat.not_lt.2 hlo), ?_, fun ht' hj _ => hupper ht' hj, ?_, ?_, ?_,
      ?_, ?_, ?_⟩
    · intro t' h q' hnone hsome
      rw [hnone] at hsome
      cases hsome
    · intro t' h q' j ht' hj hp
      rw [hupper ht' hj] at hp
      exact .inl ⟨ht', hp⟩
    · intro t' q' j ht' hj hn
      refine hother ht' hj ?_
      rintro ⟨rfl, rfl⟩
      -- the entry of page `512 * q + i` is the one that was set
      obtain rfl : q = q' := by simpa using ht.symm.trans ht'
      omega
    · intro t' q' j hnone hsome
      rw [hnone] at hsome
      cases hsome
    · intro n hlo hhi
      obtain rfl : n = 512 * q + i := by omega
      refine ⟨t, ?_, ?_⟩
      · rwa [show (512 * q + i) / 512 = q by omega]
      · rw [show (512 * q + i) % 512 = i by omega, hslot, hpte]
    · intro x hout
      have htable := hout t (by rw [ht]; simp)
      have hne : x ≠ t + 8 * i := by omega
      exact Function.update_of_ne hne _ _
    · refine ⟨[⟨t + 8 * i, t + 8 * i + 8⟩], rfl, fun w hw => ?_⟩
      obtain rfl := List.mem_singleton.1 hw
      refine ⟨t, by rw [ht]; simp, Nat.le_add_right _ _, ?_⟩
      show t + 8 * i + 8 ≤ t + 4096
      omega

end PML4

end Mushix
