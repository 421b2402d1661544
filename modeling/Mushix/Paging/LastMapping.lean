import Mushix.Paging.CreateMapping
import Mushix.Paging.Demand

/-!
# The page table of the program

Any sequence of `create_mapping` calls on a new PML4 table, in terms of what the processor does
with the tables: for every virtual address the last call whose pages contain it decides.

* `MapRequest.translation`: what a call says about an address of its pages;
* `PML4.mapped_createMapping`: what one call does to the translations;
* `PML4.translate_createMappings`: the translations after any sequence of calls.
-/

namespace Mushix

/-- The page of a virtual address. -/
def pageOf (va : ℕ) : ℕ := va / 4096 * 4096

namespace MapRequest

/-- The pages of the call contain the address. -/
def Covers (r : MapRequest) (va : ℕ) : Prop := r.virtStart ≤ pageOf va ∧ pageOf va < r.virtEnd

instance (r : MapRequest) (va : ℕ) : Decidable (r.Covers va) :=
  inferInstanceAs (Decidable (_ ∧ _))

/-- The physical pages of the call lie below `2 ^ 52`. -/
def InRange (r : MapRequest) : Prop :=
  ∀ va, r.Covers va → r.phys + (pageOf va - r.virtStart) + 4096 ≤ 2 ^ 52

/-- The translation that the call asks for. -/
def translation (r : MapRequest) (va : ℕ) : Option Translation :=
  if r.attr = .notPresent then
    none
  else
    let pointer := PageAttr.readWriteKernel.toU64
    some
      { phys := r.phys + (pageOf va - r.virtStart) + va % 4096
        flags := [pointer, pointer, pointer, r.attr.toU64] }

variable {r : MapRequest} {va : ℕ}

/-- A request covers an address by its page. -/
theorem covers_iff : r.Covers va ↔ r.first ≤ va / 4096 ∧ va / 4096 < r.limit := by
  have hstart := r.mul_first
  rw [Covers, pageOf, limit]
  omega

/-- The physical pages of a call that is in range. -/
theorem InRange.target_le (h : r.InRange) {n : ℕ} (hfirst : r.first ≤ n) (hn : n < r.limit) :
    r.call.target n + 4096 ≤ 2 ^ 52 := by
  have hpage : 4096 * n / 4096 = n := Nat.mul_div_cancel_left _ (by decide)
  have hlast := h (4096 * n) (covers_iff.2 (by omega))
  rw [pageOf, hpage] at hlast
  have hstart := r.mul_first
  rw [MapCall.target, call_address]
  show r.phys + 4096 * n - r.virtStart + 4096 ≤ 2 ^ 52
  omega

/-- No page of a call that is in range is refused. -/
theorem InRange.refusal_eq_none (h : r.InRange) {n : ℕ} (hfirst : r.first ≤ n)
    (hn : n < r.limit) : r.call.refusal n = none := by
  have hlast := h.target_le hfirst hn
  have hlimit := r.limit_le
  rw [MapCall.target, call_address] at hlast
  refine MapCall.refusal_eq_none_iff.2 ⟨?_, r.phys_aligned⟩
  rw [call_address]
  have hlast : r.phys + 4096 * n - r.virtStart + 4096 ≤ 2 ^ 52 := hlast
  have hend := r.end_le
  have hlt := r.start_lt_end
  show r.phys + 4096 * n < 2 ^ 64
  omega

end MapRequest

namespace MapCall

/-- The translation that the call asks for. -/
def translation (r : MapCall) (va : ℕ) : Option Translation :=
  if r.attr = .notPresent then
    none
  else
    let pointer := PageAttr.readWriteKernel.toU64
    some
      { phys := r.target (va % 2 ^ 48 / 4096) + va % 4096
        flags := [pointer, pointer, pointer, r.attr.toU64] }

/-- Only the low 48 bits of an address are translated. -/
theorem translation_mod (r : MapCall) (va : ℕ) :
    r.translation (va % 2 ^ 48) = r.translation va := by
  have hmod : va % 2 ^ 48 % 4096 = va % 4096 := Nat.mod_mod_of_dvd _ (by decide)
  rw [translation, translation, Nat.mod_mod, hmod]

end MapCall

/-- Below the upper half the call translates as the request says. -/
theorem MapRequest.call_translation {r : MapRequest} {va : ℕ} (hva : va < 2 ^ 47)
    (hcovers : r.Covers va) : r.call.translation va = r.translation va := by
  have hle : r.virtStart ≤ pageOf va := hcovers.1
  have hphys : r.call.target (va % 2 ^ 48 / 4096) = r.phys + (pageOf va - r.virtStart) := by
    rw [MapCall.target, call_address, Nat.mod_eq_of_lt (by omega)]
    show r.phys + 4096 * (va / 4096) - r.virtStart = _
    rw [pageOf] at hle ⊢
    omega
  rw [MapCall.translation, hphys]
  rfl

namespace PML4

/-- Calls of `create_mapping` one after the other. -/
def createMappings (box : BoxSource) (root : ℕ) : List MapRequest → Method TableMemory Unit
  | [] => return ()
  | r :: rs => do
    createMapping box r.virtStart r.virtEnd r.phys r.attr root
    createMappings box root rs

/-- The last of the calls whose pages contain the address. -/
def lastCall (rs : List MapRequest) (va : ℕ) : Option MapRequest :=
  rs.reverse.find? fun r => r.Covers va

/-- A pointer as `populate` writes it. -/
def OwnPointer (e : BitVec 64) : Prop :=
  IsTablePointer e ∧ flags e = PageAttr.readWriteKernel.toU64

/-- A tree of tables that the program built since `base` calls of `Box::new`. -/
structure OwnTree (box : BoxSource) (root base : ℕ) (own : Owners) (s : TableMemory) : Prop where
  shape : Shape box root (fun _ => True) OwnPointer own s
  used : ∀ k, base ≤ k → k < s.boxes → own (box.addr k) ≠ none

variable {box : BoxSource} {root : ℕ} {own own' : Owners} {s s' : TableMemory} {r : MapRequest}
  {va base : ℕ}

/-- A pointer that the code stores is one to a table of its own. -/
theorem ownPointer_pointer {k : ℕ} (hk : k < box.supply) : OwnPointer (pointer box k) :=
  ⟨isTablePointer_pointer hk, flags_pointer hk⟩

/-- The tree after `PML4::new()`. -/
theorem ownTree_new (hbox : s.boxes < box.supply) :
    ∃ own s', new box s = .ok (box.addr s.boxes) s' ∧
      OwnTree box (box.addr s.boxes) s.boxes own s' ∧
      ∀ va, translate s'.mem (box.addr s.boxes) va = none := by
  let root := box.addr s.boxes
  let own : Owners := Function.update (fun _ => none) root (some (3, 0))
  let s' : TableMemory :=
    { mem := TableMemory.zeroPage s.mem root
      boxes := s.boxes + 1
      written := ⟨root, root + 4096⟩ :: s.written }
  -- the root is the only table, and it is empty
  have hcases : ∀ {t r}, own t = some r → t = root ∧ r = (3, 0) := by
    intro t r ht
    by_cases hne : t = root
    · subst hne
      rw [show own root = some (3, 0) from Function.update_self _ _ _] at ht
      exact ⟨rfl, (Option.some.inj ht).symm⟩
    · rw [show own t = none from Function.update_of_ne hne _ _] at ht
      cases ht
  have hzero : ∀ {i}, i < 512 → s'.mem (root + 8 * i) = 0 := by
    intro i hi
    refine if_pos ⟨Nat.le_add_right _ _, ?_⟩
    unfold pageSize
    omega
  have habsent : ∀ {t r i}, own t = some r → i < 512 → ¬Present (s'.mem (t + 8 * i)) := by
    intro t r i ht hi
    rw [(hcases ht).1, hzero hi]
    decide
  refine ⟨own, s', Entry.run_newZeroed hbox, ⟨?_, ?_⟩, fun va => ?_⟩
  · refine ⟨Function.update_self _ _ _, ?_, ?_, ?_, ?_, ?_, ?_⟩
    · intro t h q ht
      obtain ⟨rfl, hr⟩ := hcases ht
      cases hr
      exact ⟨le_rfl, fun _ => ⟨rfl, rfl⟩⟩
    · intro t r ht
      obtain ⟨rfl, -⟩ := hcases ht
      exact ⟨box.aligned _ hbox, box.below _ hbox⟩
    · exact fun ht hi hp => absurd hp (habsent ht hi)
    · exact fun ht hi _ _ hp => absurd hp (habsent ht hi)
    · intro t h q ht hlt
      obtain ⟨-, hr⟩ := hcases ht
      cases hr
      omega
    · intro k hk hlt
      have hne : box.addr k ≠ root := fun heq => by
        have hk : s.boxes + 1 ≤ k := hk
        have := box.fresh k hlt s.boxes hbox heq
        omega
      exact Function.update_of_ne hne _ _
  · intro k hlo hhi
    have hhi : k < s.boxes + 1 := hhi
    obtain rfl : k = s.boxes := by omega
    rw [show own (box.addr s.boxes) = some (3, 0) from Function.update_self _ _ _]
    simp
  · have hword : s'.mem (slot 3 root va) = 0 := by
      rw [slot_eq]
      exact hzero (Radix.digit_lt (by decide) 3 _)
    show walk s'.mem 3 root va = none
    rw [walk, hword, if_pos (by decide)]

/-- The entry of a page that was mapped, as the processor reads it. -/
theorem walk_pte {r : MapCall} (hva : va < 2 ^ 48) (haligned : r.target (va / 4096) % 4096 = 0)
    (hlt : r.target (va / 4096) + 4096 ≤ 2 ^ 52) {t : ℕ}
    (hpte : s.mem (t + 8 * (va / 4096 % 512)) = r.pte (va / 4096)) :
    (walk s.mem 0 t va).map (fun tr =>
      { tr with flags := List.replicate 3 PageAttr.readWriteKernel.toU64 ++ tr.flags }) =
      r.translation va := by
  have hbits : r.attr.toU64.toNat < 4096 := by cases r.attr <;> decide
  have hslot : s.mem (slot 0 t va) =
      BitVec.ofNat 64 (r.target (va / 4096)) ||| r.attr.toU64 := by
    rw [slot_eq, Radix.digit_zero, hpte, MapCall.pte]
  rw [walk_zero_entry hslot haligned hlt hbits, MapCall.translation, Nat.mod_eq_of_lt hva]
  cases r.attr <;> rfl

/-- The pages that were mapped are translated as the call asks for, and all others as before. -/
theorem Mapped.translate_eq {r : MapCall} {m : ℕ}
    (hs : Shape box root (fun _ => True) OwnPointer own s)
    (h : Mapped box root (fun _ => True) OwnPointer r own s r.first m s')
    (hrange : ∀ n, r.first ≤ n → n < m → r.target n + 4096 ≤ 2 ^ 52) (va : ℕ) :
    translate s'.mem root va =
      if r.first ≤ va % 2 ^ 48 / 4096 ∧ va % 2 ^ 48 / 4096 < m then r.translation va
      else translate s.mem root va := by
  obtain ⟨-, hset, own', hs', hmaps⟩ := h
  have hlow : va % 2 ^ 48 < 2 ^ 48 := Nat.mod_lt _ (by decide)
  -- the four levels take 48 bits, so every page is below the PML4 table
  have htop : va % 2 ^ 48 / 4096 / 512 ^ 4 = 0 := Nat.div_eq_of_lt (by omega)
  rw [translate, translate, ← walk_mod s'.mem le_rfl, ← walk_mod s.mem le_rfl]
  split
  case isTrue hn =>
    obtain ⟨t, ht, hpte⟩ := hmaps.mapped hn.1 hn.2
    have hphys := (MapCall.refusal_eq_none_iff.1 (hset _ hn.1 hn.2)).2
    have haligned := (MapCall.target_mod hn.1).trans hphys
    have htranslate := hs'.translate_eq (fun _ h => h.2) trivial ht htop
    rw [translate] at htranslate
    rw [htranslate, walk_pte hlow haligned (hrange _ hn.1 hn.2) hpte, r.translation_mod]
  case isFalse hnot =>
    exact hmaps.walk_of_not_mem (fun _ h => h.1.1) hs hs' (by omega)
      (hs.owns_root.trans (by rw [htop]))

/-- Mapping keeps a tree of tables that the program built. -/
theorem OwnTree.of_maps {pte : ℕ → BitVec 64} {a b : ℕ} (hs : OwnTree box root base own s)
    (hs' : Shape box root (fun _ => True) OwnPointer own' s')
    (hmaps : Maps box (fun _ => True) OwnPointer pte own own' s s' a b) :
    OwnTree box root base own' s' where
  shape := hs'
  used k hlo hhi := by
    by_cases hk : k < s.boxes
    · obtain ⟨t, ht⟩ := Option.ne_none_iff_exists'.1 (hs.used k hlo hk)
      rw [hmaps.kept ht]
      simp
    · exact hmaps.boxed (Nat.le_of_not_lt hk) hhi

/-- There are not more tables than places for them. -/
theorem OwnTree.supply_le (hs : OwnTree box root base own s) (hbox : box.supply ≤ s.boxes) :
    box.supply ≤ base + maxTables :=
  hs.shape.supply_le fun k hlo hhi => hs.used k hlo (hhi.trans_le hbox)

/-- A call on a tree of tables that the program built: it maps the pages of the range, up to the
first one that is refused or for which there is no page left for a table. -/
theorem OwnTree.createMapping_cases (hs : OwnTree box root base own s) (r : MapCall) :
    (∃ own' s', createMapping box r.virtStart r.virtEnd r.phys r.attr root s = .ok () s' ∧
      OwnTree box root base own' s' ∧
      Mapped box root (fun _ => True) OwnPointer r own s r.first r.limit s') ∨
    ∃ own' e s' m, createMapping box r.virtStart r.virtEnd r.phys r.attr root s = .error e s' ∧
      OwnTree box root base own' s' ∧ m < r.limit ∧
      Mapped box root (fun _ => True) OwnPointer r own s r.first m s' ∧
      (r.refusal m = some e ∨ e = outOfMemory ∧ box.supply ≤ s'.boxes) := by
  rcases createMapping_spec hs.shape (fun _ _ _ _ => trivial) (fun _ h => h.1)
    (fun _ => ownPointer_pointer) with ⟨s', hrun, hmapped⟩ | ⟨e, s', hrun, m, hm, hmapped, hstop⟩
  · obtain ⟨-, -, own', hs', hmaps⟩ := id hmapped
    exact .inl ⟨own', s', hrun, hs.of_maps hs' hmaps, hmapped⟩
  · obtain ⟨-, -, own', hs', hmaps⟩ := id hmapped
    have htree := hs.of_maps hs' hmaps
    exact .inr ⟨own', e, s', m, hrun, htree, hm, hmapped, hstop⟩

/-- What one call needs of `Box::new`. -/
theorem Mapped.boxes_le {r : MapCall} {m : ℕ}
    (hs : Shape box root (fun _ => True) OwnPointer own s)
    (h : Mapped box root (fun _ => True) OwnPointer r own s r.first m s') (hm : m ≤ r.limit) :
    s'.boxes ≤ s.boxes + tablesFor r.first r.limit := by
  obtain ⟨-, -, own', hs', hmaps⟩ := h
  exact (hs.boxes_le_tablesFor hs' hmaps).trans
    (Nat.add_le_add_left (tablesFor_mono r.first hm) _)

/-- One call decides about the addresses of its pages and changes no other translation, unless
`Box::new` has run out of pages. -/
theorem mapped_or_outOfMemory (hs : OwnTree box root base own s) (hrange : r.InRange) :
    (∃ own' s', createMapping box r.virtStart r.virtEnd r.phys r.attr root s = .ok () s' ∧
      OwnTree box root base own' s' ∧ s'.boxes ≤ s.boxes + tablesFor r.first r.limit ∧
      ∀ va < 2 ^ 47, translate s'.mem root va =
        if r.Covers va then r.translation va else translate s.mem root va) ∨
    ∃ own' s', createMapping box r.virtStart r.virtEnd r.phys r.attr root s =
        .error outOfMemory s' ∧ OwnTree box root base own' s' ∧
      s'.boxes ≤ s.boxes + tablesFor r.first r.limit ∧ box.supply ≤ s'.boxes := by
  rcases hs.createMapping_cases r.call with ⟨own', s', hrun, htree, hmapped⟩ |
    ⟨own', e, s', m, hrun, htree, hm, hmapped, hstop⟩
  · have hboxes := hmapped.boxes_le hs.shape le_rfl
    rw [r.call_first, r.call_limit] at hboxes
    refine .inl ⟨own', s', hrun, htree, hboxes, fun va hva => ?_⟩
    -- the walk reads 48 bits of an address
    have hpage : va % 2 ^ 48 / 4096 = va / 4096 := by rw [Nat.mod_eq_of_lt (by omega)]
    have htranslate := hmapped.translate_eq hs.shape (fun n hlo hhi =>
      hrange.target_le (r.call_first ▸ hlo) (r.call_limit ▸ hhi)) va
    rw [hpage, r.call_first, r.call_limit] at htranslate
    rw [htranslate]
    by_cases hcovers : r.Covers va
    · rw [if_pos (MapRequest.covers_iff.1 hcovers), if_pos hcovers,
        MapRequest.call_translation hva hcovers]
    · rw [if_neg fun h => hcovers (MapRequest.covers_iff.2 h), if_neg hcovers]
  · have hboxes := hmapped.boxes_le hs.shape hm.le
    have hle := hmapped.1
    rw [r.call_first, r.call_limit] at hboxes
    rw [r.call_first] at hle
    rw [r.call_limit] at hm
    -- no page is refused
    rcases hstop with hrefusal | ⟨rfl, hbox⟩
    · rw [hrange.refusal_eq_none hle hm] at hrefusal
      cases hrefusal
    · exact .inr ⟨own', s', hrun, htree, hboxes, hbox⟩

/-- One call decides about the addresses of its pages and changes no other translation, where there
are pages for as many tables as a tree can have. -/
theorem mapped_createMapping (hs : OwnTree box root base own s)
    (hsupply : base + maxTables < box.supply) (hrange : r.InRange) :
    ∃ own' s', createMapping box r.virtStart r.virtEnd r.phys r.attr root s = .ok () s' ∧
      OwnTree box root base own' s' ∧
      ∀ va < 2 ^ 47, translate s'.mem root va =
        if r.Covers va then r.translation va else translate s.mem root va := by
  rcases mapped_or_outOfMemory hs hrange with ⟨own', s', hrun, htree, -, htranslate⟩ |
    ⟨own', s', -, htree, -, hbox⟩
  · exact ⟨own', s', hrun, htree, htranslate⟩
  · have hle := htree.supply_le hbox
    omega

/-- The last call decides, unless its pages do not contain the address. -/
theorem lastCall_append (rs : List MapRequest) (r : MapRequest) (va : ℕ) :
    lastCall (rs ++ [r]) va = if r.Covers va then some r else lastCall rs va := by
  rw [lastCall, List.reverse_append, List.reverse_singleton, List.singleton_append,
    List.find?_cons]
  by_cases h : r.Covers va <;> simp [h, lastCall]

/-- The last request of a list is made last. -/
theorem createMappings_append (rs : List MapRequest) (r : MapRequest) {s s' : TableMemory}
    (h : createMappings box root rs s = .ok () s') :
    createMappings box root (rs ++ [r]) s =
      createMapping box r.virtStart r.virtEnd r.phys r.attr root s' := by
  induction rs generalizing s with
  | nil =>
    obtain rfl : s = s' := by
      rw [createMappings] at h
      cases h
      rfl
    exact congrFun bind_pure_unit s
  | cons r₀ rs ih =>
    rw [createMappings] at h
    rw [List.cons_append, createMappings]
    cases hrun : createMapping box r₀.virtStart r₀.virtEnd r₀.phys r₀.attr root s with
    | ok _ s₁ =>
      rw [Method.bind_of_ok hrun] at h ⊢
      exact ih h
    | error e s₁ =>
      rw [Method.bind_of_error hrun] at h
      cases h

/-- Every sequence of calls returns, and the last call whose pages contain an address decides
about it. -/
theorem mapped_createMappings {rs : List MapRequest} (hs : OwnTree box root base own s)
    (hsupply : base + maxTables < box.supply) (hempty : ∀ va, translate s.mem root va = none)
    (hrange : ∀ r ∈ rs, r.InRange) :
    ∃ own' s', createMappings box root rs s = .ok () s' ∧ OwnTree box root base own' s' ∧
      ∀ va < 2 ^ 47, translate s'.mem root va =
        (lastCall rs va).bind fun r => r.translation va := by
  -- on the last call: it decides about its own pages and leaves the rest to the calls before it
  induction rs using List.reverseRecOn with
  | nil => exact ⟨own, s, rfl, hs, fun va _ => hempty va⟩
  | append_singleton rs r ih =>
    obtain ⟨own₁, s₁, hrun₁, hs₁, htr₁⟩ := ih fun r' hr' => hrange r' (by simp [hr'])
    obtain ⟨own₂, s₂, hrun₂, hs₂, htr₂⟩ := mapped_createMapping hs₁ hsupply (hrange r (by simp))
    refine ⟨own₂, s₂, ?_, hs₂, fun va hva => ?_⟩
    · rw [createMappings_append rs r hrun₁, hrun₂]
    · rw [htr₂ va hva, lastCall_append, htr₁ va hva]
      split <;> rfl

/-- For every sequence of `create_mapping` calls on a new PML4 table, with pages for as many
tables as a tree can have: all of them return, the walk of an address gives what the last call
says whose pages contain the address, and no translation without such a call; and no call
changes the translation of an address outside its pages. -/
theorem translate_createMappings (box : BoxSource) (s : TableMemory)
    (hsupply : s.boxes + maxTables < box.supply) (rs : List MapRequest)
    (hrange : ∀ r ∈ rs, r.InRange) :
    ∃ root s₀ s', new box s = .ok root s₀ ∧ createMappings box root rs s₀ = .ok () s' ∧
      (∀ va < 2 ^ 47, translate s'.mem root va =
        (lastCall rs va).bind fun r => r.translation va) ∧
      ∀ pre r post, rs = pre ++ r :: post → ∃ s₁ s₂, createMappings box root pre s₀ = .ok () s₁ ∧
        createMapping box r.virtStart r.virtEnd r.phys r.attr root s₁ = .ok () s₂ ∧
        ∀ va < 2 ^ 47, ¬r.Covers va → translate s₂.mem root va = translate s₁.mem root va := by
  obtain ⟨own, s₀, hnew, hs, hempty⟩ := ownTree_new ((Nat.le_add_right _ _).trans_lt hsupply)
  obtain ⟨own', s', hrun, -, htr⟩ := mapped_createMappings hs hsupply hempty hrange
  refine ⟨box.addr s.boxes, s₀, s', hnew, hrun, htr, ?_⟩
  rintro pre r post rfl
  obtain ⟨own₁, s₁, hrun₁, hs₁, -⟩ := mapped_createMappings hs hsupply hempty
    fun r' hr' => hrange r' (List.mem_append_left _ hr')
  obtain ⟨own₂, s₂, hrun₂, -, htr₂⟩ := mapped_createMapping hs₁ hsupply (hrange r (by simp))
  refine ⟨s₁, s₂, hrun₁, hrun₂, fun va hva hnot => ?_⟩
  rw [htr₂ va hva, if_neg hnot]

/-- The calls of `init_pading` for 4 GiB of memory. -/
def initialMappings : List MapRequest :=
  [{ virtStart := 0
     virtEnd := 0x100000000
     phys := 0
     attr := .readWriteKernel
     start_aligned := rfl
     start_lt_end := by decide
     end_le := by decide
     phys_aligned := rfl },
   { virtStart := 0
     virtEnd := 4096
     phys := 0
     attr := .notPresent
     start_aligned := rfl
     start_lt_end := by decide
     end_le := by decide
     phys_aligned := rfl }]

/-- The tables of `init_pading`. -/
theorem translate_createMappings_initial :
    ∃ root s₀ s', new BoxSource.consecutive ⟨fun _ => 0, 0, []⟩ = .ok root s₀ ∧
      createMappings .consecutive root initialMappings s₀ = .ok () s' ∧
      ∀ va < 2 ^ 47, translate s'.mem root va =
        (lastCall initialMappings va).bind fun r => r.translation va := by
  have hrange : ∀ r ∈ initialMappings, r.InRange := by
    simp only [initialMappings, List.forall_mem_cons, MapRequest.InRange, MapRequest.Covers]
    refine ⟨fun va h => by omega, fun va h => by omega, by simp⟩
  obtain ⟨root, s₀, s', hnew, hrun, htr, -⟩ :=
    translate_createMappings .consecutive ⟨fun _ => 0, 0, []⟩ (by decide) initialMappings hrange
  exact ⟨root, s₀, s', hnew, hrun, htr⟩

end PML4

end Mushix
