import Mushix.Paging.CreateMapping

/-!
# Pages that have a page table

`create_mapping` for a page whose page table is there: it allocates nothing and stores one entry.
This holds in every memory, whoever built the tables.

* `Leads`: the walk of a page through pointers to tables;
* `PML4.createMapping_of_leads`: the call stores the entry of the page;
* `HasPageTables`: all pages of a set have page tables, in a tree;
* `HasPageTables.leads_iff`: the store of one entry changes no walk to a page table.
-/

namespace Mushix

open Radix (digit)

/-- The walk of page `n` comes to a table, through pointers to tables without attributes in bits
52 to 63. -/
inductive Leads (mem : ℕ → BitVec 64) (root n : ℕ) : ℕ → ℕ → Prop where
  | root : Leads mem root n 3 root
  | next {h t : ℕ} (table : Leads mem root n (h + 1) t)
      (present : Present (mem (t + 8 * digit 512 (h + 1) n)))
      (pointer : IsTablePointer (mem (t + 8 * digit 512 (h + 1) n))) :
      Leads mem root n h (frame (mem (t + 8 * digit 512 (h + 1) n)))

/-- The page has this entry in its page table. -/
def HasEntry (mem : ℕ → BitVec 64) (root n : ℕ) (e : BitVec 64) : Prop :=
  ∃ t, Leads mem root n 0 t ∧ mem (t + 8 * digit 512 0 n) = e

/-- The pages have page tables. On their walks, no two entries lead to the same table. -/
structure HasPageTables (pages : ℕ → Prop) (root : ℕ) (mem : ℕ → BitVec 64) : Prop where
  root_aligned : root % 4096 = 0
  leads : ∀ n, pages n → ∃ t, Leads mem root n 0 t
  tree : ∀ n n' h h' t, pages n → pages n' → Leads mem root n h t → Leads mem root n' h' t →
    h = h' ∧ n / 512 ^ (h + 1) = n' / 512 ^ (h + 1)

section Walks

variable {mem mem' : ℕ → BitVec 64} {root n h t : ℕ}

/-- All tables are pages. -/
theorem Leads.aligned (hroot : root % 4096 = 0) (hleads : Leads mem root n h t) :
    t % 4096 = 0 := by
  cases hleads with
  | root => exact hroot
  | next => exact (frame_page _).1

/-- The processor goes the same way. -/
theorem Leads.walk_eq (hleads : Leads mem root n h t) :
    ∃ fs : List (BitVec 64), ∀ va, va / 4096 = n →
      walk mem 3 root va =
        (walk mem h t va).map fun tr => { tr with flags := fs ++ tr.flags } := by
  induction hleads with
  | root => exact ⟨[], fun va _ => by simp⟩
  | @next h t table present pointer ih =>
    obtain ⟨fs, hwalk⟩ := ih
    refine ⟨fs ++ [flags (mem (t + 8 * digit 512 (h + 1) n))], fun va hva => ?_⟩
    have hslot : slot (h + 1) t va = t + 8 * digit 512 (h + 1) n := by rw [slot_eq, hva]
    rw [hwalk va hva, walk_of_pointer (hslot ▸ present) (hslot ▸ pointer.1), hslot, Option.map_map]
    congr 1
    funext tr
    simp [Translation.under]

/-- A walk depends on the pointers on its way only. -/
theorem leads_congr
    (hsame : ∀ h t, Leads mem root n (h + 1) t →
      mem' (t + 8 * digit 512 (h + 1) n) = mem (t + 8 * digit 512 (h + 1) n)) :
    Leads mem' root n h t ↔ Leads mem root n h t := by
  constructor
  · intro hleads
    induction hleads with
    | root => exact .root
    | next _ present pointer ih =>
      rw [hsame _ _ ih] at present pointer ⊢
      exact .next ih present pointer
  · intro hleads
    induction hleads with
    | root => exact .root
    | next table present pointer ih =>
      rw [← hsame _ _ table] at present pointer ⊢
      exact .next ih present pointer

/-- A page whose entry maps it to itself. -/
theorem HasEntry.translate_eq {attr : PageAttr} (hattr : attr ≠ .notPresent)
    (hn : 4096 * n + 4096 ≤ 2 ^ 52)
    (hentry : HasEntry mem root n (BitVec.ofNat 64 (4096 * n) ||| attr.toU64)) :
    ∃ fs, ∀ va, va / 4096 = n →
      translate mem root va = some { phys := va, flags := fs ++ [attr.toU64] } := by
  obtain ⟨t, hleads, hmem⟩ := hentry
  obtain ⟨fs, hwalk⟩ := hleads.walk_eq
  refine ⟨fs, fun va hva => ?_⟩
  have hslot : slot 0 t va = t + 8 * digit 512 0 n := by rw [slot_eq, hva]
  have hpresent : Present attr.toU64 := by
    cases attr with
    | notPresent => exact absurd rfl hattr
    | readWriteKernel => decide
    | readWriteIo => decide
  have hlow : attr.toU64.toNat < 4096 := by cases attr <;> decide
  have hphys : 4096 * n + va % 4096 = va := by omega
  rw [translate, hwalk va hva,
    walk_zero_entry (hslot ▸ hmem) (Nat.mul_mod_right 4096 n) hn hlow, if_pos hpresent, hphys]
  rfl

end Walks

namespace HasPageTables

variable {pages : ℕ → Prop} {mem mem' : ℕ → BitVec 64} {root n m h t t' : ℕ}

/-- Other memory with the same pointers has the same page tables. -/
theorem congr (htables : HasPageTables pages root mem)
    (hsame : ∀ n, pages n → ∀ h t, Leads mem root n (h + 1) t →
      mem' (t + 8 * digit 512 (h + 1) n) = mem (t + 8 * digit 512 (h + 1) n)) :
    HasPageTables pages root mem' where
  root_aligned := htables.root_aligned
  leads n hn := by
    obtain ⟨t, hleads⟩ := htables.leads n hn
    exact ⟨t, (leads_congr (hsame n hn)).2 hleads⟩
  tree n n' h h' t hn hn' hleads hleads' :=
    htables.tree n n' h h' t hn hn' ((leads_congr (hsame n hn)).1 hleads)
      ((leads_congr (hsame n' hn')).1 hleads')

/-- The entry of a page is not on the way to a page table. -/
theorem entry_ne (htables : HasPageTables pages root mem) (hn : pages n)
    (hleads : Leads mem root n 0 t) (hm : pages m) (hleads' : Leads mem root m (h + 1) t') :
    t' + 8 * digit 512 (h + 1) m ≠ t + 8 * digit 512 0 n := by
  intro heq
  obtain ⟨rfl, -⟩ := entry_inj (hleads'.aligned htables.root_aligned)
    (hleads.aligned htables.root_aligned) (Radix.digit_lt (by decide) _ _)
    (Radix.digit_lt (by decide) _ _) heq
  exact absurd (htables.tree m n _ _ _ hm hn hleads' hleads).1 (Nat.succ_ne_zero h)

/-- Two pages do not share their entry. -/
theorem eq_of_entry_eq (htables : HasPageTables pages root mem) (hn : pages n)
    (hleads : Leads mem root n 0 t) (hm : pages m) (hleads' : Leads mem root m 0 t')
    (heq : t' + 8 * digit 512 0 m = t + 8 * digit 512 0 n) : m = n := by
  obtain ⟨rfl, hdigit⟩ := entry_inj (hleads'.aligned htables.root_aligned)
    (hleads.aligned htables.root_aligned) (Radix.digit_lt (by decide) _ _)
    (Radix.digit_lt (by decide) _ _) heq
  have hprefix := (htables.tree m n _ _ _ hm hn hleads' hleads).2
  rw [Radix.digit_zero, Radix.digit_zero] at hdigit
  rw [Nat.zero_add, Nat.pow_one] at hprefix
  omega

section Store

variable (htables : HasPageTables pages root mem) (hn : pages n) (hleads : Leads mem root n 0 t)
  (hsame : ∀ a, a % 8 = 0 → a ≠ t + 8 * digit 512 0 n → mem' a = mem a)

include htables hn hleads hsame

/-- A pointer on the way to a page table stays as it is when the entry of a page is stored. -/
theorem pointer_eq (hm : pages m) (hleads' : Leads mem root m (h + 1) t') :
    mem' (t' + 8 * digit 512 (h + 1) m) = mem (t' + 8 * digit 512 (h + 1) m) := by
  have haligned := hleads'.aligned htables.root_aligned
  exact hsame _ (by omega) (htables.entry_ne hn hleads hm hleads')

/-- The store of the entry of a page changes no walk to a page table. -/
theorem leads_iff (hm : pages m) : Leads mem' root m h t' ↔ Leads mem root m h t' :=
  leads_congr fun _ _ => htables.pointer_eq hn hleads hsame hm

/-- The pages still have their page tables. -/
theorem store : HasPageTables pages root mem' :=
  htables.congr fun _ hm _ _ => htables.pointer_eq hn hleads hsame hm

/-- The page has the entry that was stored. -/
theorem hasEntry_self {e : BitVec 64} (he : mem' (t + 8 * digit 512 0 n) = e) :
    HasEntry mem' root n e :=
  ⟨t, (htables.leads_iff hn hleads hsame hn).2 hleads, he⟩

/-- The other pages keep their entries. -/
theorem hasEntry_of_ne {e : BitVec 64} (hm : pages m) (hne : m ≠ n)
    (hentry : HasEntry mem root m e) : HasEntry mem' root m e := by
  obtain ⟨t', hleads', he⟩ := hentry
  have haligned := hleads'.aligned htables.root_aligned
  refine ⟨t', (htables.leads_iff hn hleads hsame hm).2 hleads', ?_⟩
  rw [hsame _ (by omega) fun heq => hne (htables.eq_of_entry_eq hn hleads hm hleads' heq), he]

end Store

end HasPageTables

namespace PML4

variable {σ ρ : Type} [WordMemory σ] [TableSource ρ σ]

/-- The loop over the entries of a table, by its height. -/
def loopAt (box : ρ) (virtStart virtEnd phys : ℕ) (attr : PageAttr) : ℕ → ℕ → ℕ → Method σ ℕ
  | 0 => pageLoop virtStart virtEnd phys attr
  | h + 1 => tableLoop box virtEnd (h + 2) (loopAt box virtStart virtEnd phys attr h)

variable {n virtEnd root h t : ℕ} {s : σ}

/-- In a range that ends in its first page every loop returns the next page. -/
theorem loopAt_next (box : ρ) {virtStart : ℕ} (hlt : virtStart + 4096 < 2 ^ 64)
    (hend : virtEnd ≤ virtStart + 4096) (phys : ℕ) (attr : PageAttr) (h : ℕ) :
    ∀ t s a s', loopAt box virtStart virtEnd phys attr h t virtStart s = .ok a s' →
      a = virtStart + 4096 := by
  induction h with
  | zero => exact pageLoop_next hlt hend phys attr
  | succ h ih => exact tableLoop_next box (h + 2) hend ih

/-- The loops come to the tables to which the walk of the page leads. -/
theorem loopAt_of_leads (box : ρ) (hlt : 4096 * n + 4096 < 2 ^ 64)
    (hend : virtEnd ≤ 4096 * n + 4096) (phys : ℕ) (attr : PageAttr)
    (hleads : Leads (WordMemory.word s) root n h t) :
    loopAt box (4096 * n) virtEnd phys attr 3 root (4096 * n) s =
      loopAt box (4096 * n) virtEnd phys attr h t (4096 * n) s := by
  induction hleads with
  | root => rfl
  | @next h t table present pointer ih =>
    have hpage : 4096 * n / 4096 = n := Nat.mul_div_cancel_left n (by decide)
    have hnext := loopAt_next (σ := σ) box hlt hend phys attr h
    rw [ih, loopAt, tableLoop_one box (h + 2) t hend hnext, Table.calcIndex_eq, hpage,
      enterTable_present box _ present, toNat_and_not_attrMask pointer.2]

/-- For a page that has a page table, `create_mapping` stores one entry. -/
theorem createMapping_of_leads (box : ρ) {phys : ℕ} {attr : PageAttr} {s' : σ}
    (hlt : 4096 * n + 4096 < 2 ^ 64) (hend : virtEnd ≤ 4096 * n + 4096)
    (hphys : phys % 4096 = 0) (hfits : phys + 4096 * n < 2 ^ 64)
    (hleads : Leads (WordMemory.word s) root n 0 t)
    (hstore : WordMemory.store (t + 8 * digit 512 0 n) (BitVec.ofNat 64 phys ||| attr.toU64) s =
      .ok () s') :
    createMapping box (4096 * n) virtEnd phys attr root s = .ok () s' := by
  have hpage : 4096 * n / 4096 = n := Nat.mul_div_cancel_left n (by decide)
  have hloop := loopAt_of_leads box hlt hend phys attr hleads
  have hrun : loopAt box (4096 * n) virtEnd phys attr 3 root (4096 * n) s =
      .ok ((4096 * n + pageSize) % 2 ^ 64) s' := by
    rw [hloop, loopAt, pageLoop_one hlt hend, Table.calcIndex_eq, hpage, mapPage,
      Usize.add_bind hfits, Usize.sub_bind (Nat.le_add_left _ _), Nat.add_sub_cancel, Table.entry,
      Entry.setPage_of_aligned hphys (by omega), Method.bind_of_ok hstore]
    rfl
  exact Method.bind_of_ok hrun

end PML4

end Mushix
