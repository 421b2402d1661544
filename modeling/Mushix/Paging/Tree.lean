import Mathlib.Algebra.BigOperators.Group.Finset.Basic
import Mathlib.Algebra.Order.BigOperators.Group.Finset
import Mathlib.Order.Interval.Finset.Nat
import Mushix.Paging.Walk

/-!
# Trees of page tables and what a mapping may change

A tree of page tables is described by its owners: `own table = some (h, q)` says that the table
is the one of height `h` for the pages whose number divided by `512 ^ (h + 1)` is `q`. As `own`
is a function, no table has two places.

* `Shape`: the entries in memory agree with the owners;
* `Maps`: from one state to another the pages from `a` up to `b` were mapped, and nothing else
  changed but entries that were not in use;
* `Maps.walk_of_not_mem`: the walk of an address in none of these pages is what it was;
* `Shape.translate_eq`: the translation of an address whose page table is there.
-/

namespace Mushix

/-- The place of every table of a tree. -/
abbrev Owners := ℕ → Option (ℕ × ℕ)

/-- The number of tables that a tree can have. -/
def maxTables : ℕ := 1 + 512 + 512 ^ 2 + 512 ^ 3

section Tree

variable (box : BoxSource) (root : ℕ) (AtRisk : ℕ → Prop) (Upper : BitVec 64 → Prop)

/-- The entries in memory agree with the owners. The entries above the page tables that lead to
the pages `AtRisk` satisfy `Upper`. -/
structure Shape (own : Owners) (s : TableMemory) : Prop where
  owns_root : own root = some (3, 0)
  top : ∀ {t h q}, own t = some (h, q) → h ≤ 3 ∧ (h = 3 → t = root ∧ q = 0)
  page : ∀ {t r}, own t = some r → t % 4096 = 0 ∧ t + 4096 ≤ 2 ^ 52
  /-- Every pointer leads to the table of its place. -/
  child : ∀ {t h q i}, own t = some (h + 1, q) → i < 512 → Present (s.mem (t + 8 * i)) →
    ¬Large (s.mem (t + 8 * i)) → own (frame (s.mem (t + 8 * i))) = some (h, 512 * q + i)
  upper : ∀ {t h q i n}, own t = some (h + 1, q) → i < 512 → AtRisk n →
    n / 512 ^ (h + 1) = 512 * q + i → Present (s.mem (t + 8 * i)) → Upper (s.mem (t + 8 * i))
  /-- A pointer leads to every table but the root. -/
  linked : ∀ {t h q}, own t = some (h, q) → h < 3 → ∃ p, own p = some (h + 1, q / 512) ∧
    Present (s.mem (p + 8 * (q % 512))) ∧ ¬Large (s.mem (p + 8 * (q % 512))) ∧
    frame (s.mem (p + 8 * (q % 512))) = t
  /-- The tables still to come have no place yet. -/
  fresh : ∀ {k}, s.boxes ≤ k → k < box.supply → own (box.addr k) = none

/-- From `s` to `s'` the pages from `a` up to `b` were mapped to the entries `pte`, tables were
added where no table was, and nothing else changed. -/
structure Maps (pte : ℕ → BitVec 64) (own own' : Owners) (s s' : TableMemory) (a b : ℕ) :
    Prop where
  boxes_le : s.boxes ≤ s'.boxes
  boxes_le_supply : s'.boxes ≤ max s.boxes box.supply
  kept : ∀ {t r}, own t = some r → own' t = some r
  new : ∀ {t}, own t = none → own' t ≠ none → ∃ k, s.boxes ≤ k ∧ k < s'.boxes ∧ t = box.addr k
  boxed : ∀ {k}, s.boxes ≤ k → k < s'.boxes → own' (box.addr k) ≠ none
  /-- The tables that were added are for the pages, or for the one behind them. -/
  place : ∀ {t h q}, own t = none → own' t = some (h, q) →
    ∃ n, a ≤ n ∧ n ≤ b ∧ AtRisk n ∧ n / 512 ^ (h + 1) = q
  /-- Pointers and large pages stay as they are. -/
  upper_kept : ∀ {t h q i}, own t = some (h + 1, q) → i < 512 → Present (s.mem (t + 8 * i)) →
    s'.mem (t + 8 * i) = s.mem (t + 8 * i)
  /-- What is added above the page tables are pointers. -/
  upper_new : ∀ {t h q i}, own' t = some (h + 1, q) → i < 512 → Present (s'.mem (t + 8 * i)) →
    own t = some (h + 1, q) ∧ Present (s.mem (t + 8 * i)) ∨ Upper (s'.mem (t + 8 * i))
  /-- The entries of other pages stay as they are. -/
  page_kept : ∀ {t q i}, own t = some (0, q) → i < 512 → 512 * q + i < a ∨ b ≤ 512 * q + i →
    s'.mem (t + 8 * i) = s.mem (t + 8 * i)
  /-- The entries of other pages are not in use in the tables that were added. -/
  page_new : ∀ {t q i}, own t = none → own' t = some (0, q) → i < 512 →
    512 * q + i < a ∨ b ≤ 512 * q + i → ¬Present (s'.mem (t + 8 * i))
  mapped : ∀ {n}, a ≤ n → n < b → ∃ t, own' t = some (0, n / 512) ∧
    s'.mem (t + 8 * (n % 512)) = pte n
  /-- Words in no table stay as they are. -/
  outside : ∀ {x}, (∀ t, own' t ≠ none → ¬(t ≤ x ∧ x < t + 4096)) → s'.mem x = s.mem x
  /-- Every store was to a table. -/
  written : ∃ ws, s'.written = ws ++ s.written ∧
    ∀ w ∈ ws, ∃ t, own' t ≠ none ∧ w.Within ⟨t, t + 4096⟩

variable {box root AtRisk Upper} {pte : ℕ → BitVec 64} {own own' own'' : Owners}
  {s s' s'' : TableMemory} {a b c n h t va : ℕ}

/-- No two tables have the same place. -/
theorem Shape.unique (hs : Shape box root AtRisk Upper own s) {t t' h q : ℕ}
    (ht : own t = some (h, q)) (ht' : own t' = some (h, q)) : t = t' := by
  -- by induction on the distance to the root: every other table is linked from the one above it
  obtain ⟨k, hk⟩ := Nat.exists_eq_add_of_le (hs.top ht).1
  induction k generalizing t t' h q with
  | zero =>
    obtain rfl : h = 3 := hk.symm
    rw [((hs.top ht).2 rfl).1, ((hs.top ht').2 rfl).1]
  | succ k ih =>
    obtain ⟨p, hp, -, -, rfl⟩ := hs.linked ht (by omega)
    obtain ⟨p', hp', -, -, rfl⟩ := hs.linked ht' (by omega)
    rw [ih hp hp' (by omega)]

/-- The place of a table is inside the address space. -/
theorem Shape.prefix_lt (hs : Shape box root AtRisk Upper own s) {q : ℕ}
    (ht : own t = some (h, q)) : q < 512 ^ (3 - h) := by
  -- the place of a table in terms of the place of the one above it
  obtain ⟨k, hk⟩ := Nat.exists_eq_add_of_le (hs.top ht).1
  induction k generalizing t h q with
  | zero =>
    obtain rfl : h = 3 := hk.symm
    rw [((hs.top ht).2 rfl).2]
    exact Nat.one_pos
  | succ k ih =>
    obtain ⟨p, hp, -⟩ := hs.linked ht (by omega)
    have hlt := ih hp (by omega)
    rw [show 3 - h = 3 - (h + 1) + 1 by omega, Nat.pow_succ]
    exact Nat.lt_mul_of_div_lt hlt (by decide)

/-- Above a table for a page there are the tables of all greater heights for this page. -/
theorem Shape.ancestor (hs : Shape box root AtRisk Upper own s)
    (ht : own t = some (h, n / 512 ^ (h + 1))) {k : ℕ} (hle : h ≤ k) (hk : k ≤ 3) :
    ∃ p, own p = some (k, n / 512 ^ (k + 1)) := by
  induction k, hle using Nat.le_induction with
  | base => exact ⟨t, ht⟩
  | succ k _ ih =>
    obtain ⟨p, hp⟩ := ih (by omega)
    obtain ⟨p', hp', -⟩ := hs.linked hp (by omega)
    refine ⟨p', ?_⟩
    rw [hp', Nat.pow_succ 512 (k + 1), ← Nat.div_div_eq_div_mul]

/-- The shape depends on the entries above the page tables only. -/
theorem Shape.congr (hs : Shape box root AtRisk Upper own s) (hboxes : s'.boxes = s.boxes)
    (hmem : ∀ {t h q i}, own t = some (h + 1, q) → i < 512 →
      s'.mem (t + 8 * i) = s.mem (t + 8 * i)) : Shape box root AtRisk Upper own s' where
  owns_root := hs.owns_root
  top := hs.top
  page := hs.page
  child ht hi hp hl := by
    rw [hmem ht hi] at hp hl ⊢
    exact hs.child ht hi hp hl
  upper ht hi hrisk hn hp := by
    rw [hmem ht hi] at hp ⊢
    exact hs.upper ht hi hrisk hn hp
  linked ht hlt := by
    obtain ⟨p, hp, hpointer⟩ := hs.linked ht hlt
    refine ⟨p, hp, ?_⟩
    rw [hmem hp (Nat.mod_lt _ (by decide))]
    exact hpointer
  fresh hk hlt := hs.fresh (hboxes ▸ hk) hlt

namespace Maps

/-- Nothing was mapped and nothing changed. -/
theorem refl (box : BoxSource) (AtRisk : ℕ → Prop) (Upper : BitVec 64 → Prop)
    (pte : ℕ → BitVec 64) (own : Owners) (s : TableMemory) (a : ℕ) :
    Maps box AtRisk Upper pte own own s s a a where
  boxes_le := le_rfl
  boxes_le_supply := le_max_left _ _
  kept h := h
  new h h' := absurd h h'
  boxed hlo hhi := by omega
  place h h' := by
    rw [h] at h'
    cases h'
  upper_kept _ _ _ := rfl
  upper_new h _ hp := .inl ⟨h, hp⟩
  page_kept _ _ _ := rfl
  page_new h h' := by
    rw [h] at h'
    cases h'
  mapped h h' := by omega
  outside _ := rfl
  written := ⟨[], rfl, by simp⟩

/-- Pages that are mapped one after the other. -/
theorem trans (h : Maps box AtRisk Upper pte own own' s s' a b)
    (h' : Maps box AtRisk Upper pte own' own'' s' s'' b c) (hab : a ≤ b) (hbc : b ≤ c) :
    Maps box AtRisk Upper pte own own'' s s'' a c where
  boxes_le := h.boxes_le.trans h'.boxes_le
  boxes_le_supply := h'.boxes_le_supply.trans (max_le h.boxes_le_supply (le_max_right _ _))
  kept ht := h'.kept (h.kept ht)
  new {t} ht ht'' := by
    -- a table was added in the second part or in the first
    by_cases ht' : own' t = none
    · obtain ⟨k, hlo, hhi, heq⟩ := h'.new ht' ht''
      exact ⟨k, h.boxes_le.trans hlo, hhi, heq⟩
    · obtain ⟨k, hlo, hhi, heq⟩ := h.new ht ht'
      exact ⟨k, hlo, hhi.trans_le h'.boxes_le, heq⟩
  boxed {k} hlo hhi := by
    by_cases hk : k < s'.boxes
    · obtain ⟨r, hr⟩ := Option.ne_none_iff_exists'.1 (h.boxed hlo hk)
      rw [h'.kept hr]
      simp
    · exact h'.boxed (by omega) hhi
  place {t _ _} ht ht'' := by
    cases ht' : own' t with
    | none =>
      obtain ⟨n, hlo, hhi, hn⟩ := h'.place ht' ht''
      exact ⟨n, hab.trans hlo, hhi, hn⟩
    | some r =>
      obtain rfl := Option.some.inj ((h'.kept ht').symm.trans ht'')
      obtain ⟨n, hlo, hhi, hn⟩ := h.place ht ht'
      exact ⟨n, hlo, hhi.trans hbc, hn⟩
  upper_kept ht hi hp := by
    have heq := h.upper_kept ht hi hp
    rw [← heq]
    exact h'.upper_kept (h.kept ht) hi (heq ▸ hp)
  upper_new ht hi hp := by
    rcases h'.upper_new ht hi hp with ⟨ht', hp'⟩ | hu
    · have heq := h'.upper_kept ht' hi hp'
      rcases h.upper_new ht' hi hp' with hold | hu
      · exact .inl hold
      · exact .inr (heq ▸ hu)
    · exact .inr hu
  page_kept ht hi hn := by
    rw [h'.page_kept (h.kept ht) hi (by omega), h.page_kept ht hi (by omega)]
  page_new {t q i} ht ht'' hi hn := by
    cases ht' : own' t with
    | none => exact h'.page_new ht' ht'' hi (by omega)
    | some r =>
      obtain rfl : r = (0, q) := Option.some.inj ((h'.kept ht').symm.trans ht'')
      rw [h'.page_kept ht' hi (by omega)]
      exact h.page_new ht ht' hi (by omega)
  mapped {n} hlo hhi := by
    by_cases hn : n < b
    · obtain ⟨t, ht, heq⟩ := h.mapped hlo hn
      refine ⟨t, h'.kept ht, ?_⟩
      rw [h'.page_kept ht (Nat.mod_lt _ (by decide)) (by omega), heq]
    · exact h'.mapped (by omega) hhi
  outside {x} hout := by
    rw [h'.outside hout]
    refine h.outside fun t ht => hout t ?_
    obtain ⟨r, hr⟩ := Option.ne_none_iff_exists'.1 ht
    rw [h'.kept hr]
    simp
  written := by
    obtain ⟨ws, hws, hin⟩ := h.written
    obtain ⟨ws', hws', hin'⟩ := h'.written
    refine ⟨ws' ++ ws, by rw [hws', hws, List.append_assoc], fun w hw => ?_⟩
    rcases List.mem_append.1 hw with hw | hw
    · exact hin' w hw
    · obtain ⟨t, ht, hwithin⟩ := hin w hw
      obtain ⟨r, hr⟩ := Option.ne_none_iff_exists'.1 ht
      exact ⟨t, by rw [h'.kept hr]; simp, hwithin⟩

section Outside

variable (hpointer : ∀ e, Upper e → ¬Large e) (hs : Shape box root AtRisk Upper own s)
  (hs' : Shape box root AtRisk Upper own' s') (hmaps : Maps box AtRisk Upper pte own own' s s' a b)

include hs hs' hmaps

/-- A pointer that was not in use before leads to a table that was added. -/
theorem child_new {t h q i : ℕ} (ht : own' t = some (h + 1, q)) (hi : i < 512)
    (hchild : own' (frame (s'.mem (t + 8 * i))) = some (h, 512 * q + i))
    (hnew : ¬(own t = some (h + 1, q) ∧ Present (s.mem (t + 8 * i)))) :
    own (frame (s'.mem (t + 8 * i))) = none := by
  by_contra hne
  obtain ⟨r, hr⟩ := Option.ne_none_iff_exists'.1 hne
  obtain rfl : r = (h, 512 * q + i) := Option.some.inj ((hmaps.kept hr).symm.trans hchild)
  have hheight := (hs'.top ht).1
  -- an old table is linked from its own place, which would be this entry
  obtain ⟨p, hp, hpresent, -, -⟩ := hs.linked hr (by omega)
  rw [show (512 * q + i) / 512 = q by omega] at hp
  rw [show (512 * q + i) % 512 = i by omega] at hpresent
  obtain rfl := hs'.unique (hmaps.kept hp) ht
  exact hnew ⟨hp, hpresent⟩

include hpointer

/-- In a table that was added, the walk of an address in none of the pages ends without a
translation. -/
theorem walk_new (hn : va / 4096 < a ∨ b ≤ va / 4096) (ht : own t = none)
    (ht' : own' t = some (h, va / 4096 / 512 ^ (h + 1))) : walk s'.mem h t va = none := by
  induction h generalizing t with
  | zero =>
    have hpre := Radix.div_pow_eq 512 0 (va / 4096)
    have hi := Radix.digit_lt (by decide : 0 < 512) 0 (va / 4096)
    rw [Nat.pow_zero, Nat.div_one] at hpre
    have hnot := hmaps.page_new ht ht' hi (by omega)
    rw [walk, slot_eq, if_neg hnot]
  | succ h ih =>
    have hpre := Radix.div_pow_eq 512 (h + 1) (va / 4096)
    have hi := Radix.digit_lt (by decide : 0 < 512) (h + 1) (va / 4096)
    rw [walk, slot_eq]
    by_cases hp : Present (s'.mem (t + 8 * Radix.digit 512 (h + 1) (va / 4096)))
    · have hnew : ¬(own t = some (h + 1, va / 4096 / 512 ^ (h + 1 + 1)) ∧ Present
          (s.mem (t + 8 * Radix.digit 512 (h + 1) (va / 4096)))) := by
        rintro ⟨hold, -⟩
        rw [ht] at hold
        cases hold
      -- a present entry of such a table was set by the call, and leads to another one of them
      have hl := hpointer _ ((hmaps.upper_new ht' hi hp).resolve_left hnew)
      have hchild := hs'.child ht' hi hp hl
      rw [if_neg (not_not.2 hp), if_neg hl, ih (child_new hs hs' hmaps ht' hi hchild hnew)
        (by rw [hchild, hpre])]
      rfl
    · rw [if_pos hp]

/-- The walk of an address in none of the pages is what it was. -/
theorem walk_of_not_mem (hn : va / 4096 < a ∨ b ≤ va / 4096)
    (ht : own t = some (h, va / 4096 / 512 ^ (h + 1))) :
    walk s'.mem h t va = walk s.mem h t va := by
  induction h generalizing t with
  | zero =>
    have hpre := Radix.div_pow_eq 512 0 (va / 4096)
    have hi := Radix.digit_lt (by decide : 0 < 512) 0 (va / 4096)
    rw [Nat.pow_zero, Nat.div_one] at hpre
    rw [walk, walk, slot_eq, hmaps.page_kept ht hi (by omega)]
  | succ h ih =>
    have hpre := Radix.div_pow_eq 512 (h + 1) (va / 4096)
    have hi := Radix.digit_lt (by decide : 0 < 512) (h + 1) (va / 4096)
    rw [walk, walk, slot_eq]
    -- an entry that was in use leads on where it led
    by_cases hp : Present (s.mem (t + 8 * Radix.digit 512 (h + 1) (va / 4096)))
    · rw [hmaps.upper_kept ht hi hp]
      by_cases hl : Large (s.mem (t + 8 * Radix.digit 512 (h + 1) (va / 4096)))
      · simp only [if_pos hl]
      · have hchild := hs.child ht hi hp hl
        rw [if_neg hl, if_neg hl, ih (by rw [hchild, hpre])]
    · -- the entry was not in use, and if it is now, it leads to a table that was added
      rw [if_pos hp]
      by_cases hp' : Present (s'.mem (t + 8 * Radix.digit 512 (h + 1) (va / 4096)))
      · have ht' := hmaps.kept ht
        have hnew : ¬(own t = some (h + 1, va / 4096 / 512 ^ (h + 1 + 1)) ∧ Present
            (s.mem (t + 8 * Radix.digit 512 (h + 1) (va / 4096)))) := fun hold => hp hold.2
        have hl := hpointer _ ((hmaps.upper_new ht' hi hp').resolve_left hnew)
        have hchild := hs'.child ht' hi hp' hl
        rw [if_neg (not_not.2 hp'), if_neg hl, walk_new hpointer hs hs' hmaps hn
          (child_new hs hs' hmaps ht' hi hchild hnew) (by rw [hchild, hpre])]
        rfl
      · rw [if_pos hp']

end Outside

end Maps

/-- No more pages can be tables than there are places for tables. -/
theorem Shape.supply_le (hs : Shape box root AtRisk Upper own s) {base : ℕ}
    (hused : ∀ k, base ≤ k → k < box.supply → own (box.addr k) ≠ none) :
    box.supply ≤ base + maxTables := by
  -- the places of tables are finitely many, and each page takes one of its own
  let places : Finset (Option (ℕ × ℕ)) :=
    (Finset.range 4).biUnion fun h => (Finset.range (512 ^ (3 - h))).image fun q => some (h, q)
  have hcard : places.card ≤ maxTables := by
    refine Finset.card_biUnion_le.trans ?_
    refine (Finset.sum_le_sum fun h _ => Finset.card_image_le).trans ?_
    simp only [Finset.card_range, Finset.sum_range_succ, Finset.sum_range_zero]
    decide
  have hmaps : ∀ k ∈ Finset.Ico base box.supply, own (box.addr k) ∈ places := by
    intro k hk
    obtain ⟨hlo, hhi⟩ := Finset.mem_Ico.1 hk
    obtain ⟨⟨h, q⟩, hr⟩ := Option.ne_none_iff_exists'.1 (hused k hlo hhi)
    have hheight := (hs.top hr).1
    rw [hr]
    refine Finset.mem_biUnion.2 ⟨h, Finset.mem_range.2 (by omega), ?_⟩
    exact Finset.mem_image.2 ⟨q, Finset.mem_range.2 (hs.prefix_lt hr), rfl⟩
  have hinj : Set.InjOn (fun k => own (box.addr k)) (Finset.Ico base box.supply) := by
    intro j hj k hk heq
    obtain ⟨hlo, hhi⟩ := Finset.mem_Ico.1 (Finset.mem_coe.1 hj)
    obtain ⟨-, hhi'⟩ := Finset.mem_Ico.1 (Finset.mem_coe.1 hk)
    obtain ⟨⟨h, q⟩, hr⟩ := Option.ne_none_iff_exists'.1 (hused j hlo hhi)
    exact box.fresh j hhi k hhi' (hs.unique hr (heq.symm.trans hr))
  have hle := Finset.card_le_card_of_injOn _ hmaps hinj
  rw [Nat.card_Ico] at hle
  omega

/-- The translation of an address in a tree whose pointers have the attributes `ptr`, when its
page table is there. -/
theorem Shape.translate_eq (hs : Shape box root AtRisk Upper own s) {ptr : BitVec 64}
    (hupper : ∀ e, Upper e → flags e = ptr) (hrisk : AtRisk (va / 4096))
    (ht : own t = some (0, va / 4096 / 512)) (htop : va / 4096 / 512 ^ 4 = 0) :
    translate s.mem root va = (walk s.mem 0 t va).map fun tr =>
      { tr with flags := List.replicate 3 ptr ++ tr.flags } := by
  -- upwards from the page table: every table on the way is linked from the one above it
  have hup : ∀ k ≤ 3, ∃ p, own p = some (k, va / 4096 / 512 ^ (k + 1)) ∧
      walk s.mem k p va = (walk s.mem 0 t va).map fun tr =>
        { tr with flags := List.replicate k ptr ++ tr.flags } := by
    intro k hk
    induction k with
    | zero =>
      refine ⟨t, ht, ?_⟩
      cases walk s.mem 0 t va <;> rfl
    | succ k ih =>
      obtain ⟨p, hp, hwalk⟩ := ih (by omega)
      have hpre := Radix.div_pow_eq 512 (k + 1) (va / 4096)
      have hi := Radix.digit_lt (by decide : 0 < 512) (k + 1) (va / 4096)
      obtain ⟨p', hp', hpresent, hlarge, hframe⟩ := hs.linked hp (by omega)
      rw [show va / 4096 / 512 ^ (k + 1) / 512 = va / 4096 / 512 ^ (k + 1 + 1) by omega] at hp'
      rw [show va / 4096 / 512 ^ (k + 1) % 512 = Radix.digit 512 (k + 1) (va / 4096) from rfl]
        at hpresent hlarge hframe
      refine ⟨p', hp', ?_⟩
      rw [walk_of_pointer (by rwa [slot_eq]) (by rwa [slot_eq]), slot_eq, hframe, hwalk]
      have hptr := hupper _ (hs.upper hp' hi hrisk hpre hpresent)
      cases walk s.mem 0 t va with
      | none => rfl
      | some tr =>
        show some (Translation.under _ _) = _
        rw [Translation.under, hptr]
        rfl
  obtain ⟨p, hp, hwalk⟩ := hup 3 le_rfl
  rw [htop] at hp
  obtain rfl := ((hs.top hp).2 rfl).1
  exact hwalk

end Tree

end Mushix
