import Mushix.Paging.Tree

/-!
# The tables that a call needs

`create_mapping` populates the entries on the way to its pages that are not in use. How many
tables it needs for this can be read off the tables before the call.

* `lacking`: the places of the tables that the walk of a page lacks;
* `demand`: the number of tables that are lacking for the pages of a range;
* `Shape.demand_le_boxes`: pages are mapped when all of these tables are there;
* `Shape.boxes_le_demand`: where these tables are enough, there are no others;
* `Shape.boxes_le_tablesFor`: a bound that depends on the pages only.
-/

namespace Mushix

open Radix (digit)

/-- The places of the tables that the walk of page `n` lacks, from a table of height `h` on. -/
def lacking (mem : ℕ → BitVec 64) : ℕ → ℕ → ℕ → Finset (ℕ × ℕ)
  | 0, _, _ => ∅
  | h + 1, t, n =>
    let e := mem (t + 8 * digit 512 (h + 1) n)
    if Present e then lacking mem h (frame e) n
    else (Finset.range (h + 1)).image fun k => (k, n / 512 ^ (k + 1))

/-- The number of tables that are lacking for the pages from `a` up to `b`. -/
def demand (mem : ℕ → BitVec 64) (root a b : ℕ) : ℕ :=
  ((Finset.Ico a b).biUnion (lacking mem 3 root)).card

/-- The number of tables below the PML4 table for the pages from `a` up to `b`, and the page behind
them. -/
def tablesFor (a b : ℕ) : ℕ :=
  ∑ h ∈ Finset.range 3, (b / 512 ^ (h + 1) + 1 - a / 512 ^ (h + 1))

theorem tablesFor_mono (a : ℕ) {b c : ℕ} (h : b ≤ c) : tablesFor a b ≤ tablesFor a c := by
  refine Finset.sum_le_sum fun k _ => ?_
  have hdiv : b / 512 ^ (k + 1) ≤ c / 512 ^ (k + 1) := Nat.div_le_div_right h
  omega

/-- The address of the entry for a page. -/
theorem slot_page (h t n : ℕ) : slot h t (4096 * n) = t + 8 * digit 512 h n := by
  rw [slot_eq, Nat.mul_div_cancel_left _ (by decide)]

variable {box : BoxSource} {root : ℕ} {AtRisk : ℕ → Prop} {Upper : BitVec 64 → Prop}
  {pte : ℕ → BitVec 64} {own own' : Owners} {s s' : TableMemory} {a b h k n q t : ℕ}

/-- An entry that is in use leads to the table for the page. -/
theorem Shape.child_page (hs : Shape box root AtRisk Upper own s)
    (ht : own t = some (h + 1, n / 512 ^ (h + 2)))
    (hp : Present (s.mem (t + 8 * digit 512 (h + 1) n)))
    (hl : ¬Large (s.mem (t + 8 * digit 512 (h + 1) n))) :
    own (frame (s.mem (t + 8 * digit 512 (h + 1) n))) = some (h, n / 512 ^ (h + 1)) := by
  have hchild := hs.child ht (Radix.digit_lt (by decide) _ n) hp hl
  rwa [← Radix.div_pow_eq] at hchild

/-- Where an entry is not in use, none of the tables below it is there. -/
theorem Shape.none_of_absent (hs : Shape box root AtRisk Upper own s)
    (ht : own t = some (h + 1, n / 512 ^ (h + 2)))
    (habsent : ¬Present (s.mem (t + 8 * digit 512 (h + 1) n))) (hk : k ≤ h) (t' : ℕ) :
    own t' ≠ some (k, n / 512 ^ (k + 1)) := by
  intro ht'
  have hheight := (hs.top ht).1
  -- the table of the next height would be linked from the entry
  obtain ⟨c, hc⟩ := hs.ancestor ht' hk (by omega)
  obtain ⟨p, hp, hpresent, -⟩ := hs.linked hc (by omega)
  rw [Nat.div_div_eq_div_mul, ← Nat.pow_succ] at hp
  obtain rfl := hs.unique hp ht
  exact habsent hpresent

/-- A walk that meets pointers to tables only lacks the tables that are not there. -/
theorem Shape.mem_lacking_iff (hs : Shape box root AtRisk Upper own s)
    (ht : own t = some (h, n / 512 ^ (h + 1))) (hmeets : MeetsTables s.mem h t (4096 * n)) :
    (k, q) ∈ lacking s.mem h t n ↔
      k < h ∧ q = n / 512 ^ (k + 1) ∧ ∀ t', own t' ≠ some (k, q) := by
  induction h generalizing t with
  | zero => simp [lacking]
  | succ h ih =>
    rw [MeetsTables, slot_page] at hmeets
    rw [lacking]
    by_cases hp : Present (s.mem (t + 8 * digit 512 (h + 1) n))
    · obtain ⟨hpointer, htable⟩ := hmeets hp
      have hchild := hs.child_page ht hp hpointer.1
      rw [if_pos hp, ih hchild htable]
      constructor
      · rintro ⟨hk, hq⟩
        exact ⟨by omega, hq⟩
      · rintro ⟨hk, rfl, hnone⟩
        -- the table that the entry leads to is there
        have hne : k ≠ h := by
          rintro rfl
          exact hnone _ hchild
        exact ⟨by omega, rfl, hnone⟩
    · rw [if_neg hp]
      simp only [Finset.mem_image, Finset.mem_range, Prod.mk.injEq]
      constructor
      · rintro ⟨k, hk, rfl, rfl⟩
        exact ⟨hk, rfl, hs.none_of_absent ht hp (by omega)⟩
      · rintro ⟨hk, rfl, -⟩
        exact ⟨k, hk, rfl, rfl⟩

/-- A new table is below the root. -/
theorem Shape.height_lt_of_new (hs : Shape box root AtRisk Upper own s)
    (hs' : Shape box root AtRisk Upper own' s') {r : ℕ × ℕ} (hnone : own t = none)
    (ht : own' t = some r) : r.1 < 3 := by
  obtain ⟨k, q⟩ := r
  have hheight := hs'.top ht
  show k < 3
  by_contra hge
  -- the only table of height 3 is the root, which was there
  obtain rfl : k = 3 := by omega
  rw [(hheight.2 rfl).1, hs.owns_root] at hnone
  cases hnone

namespace Maps

variable (hs : Shape box root AtRisk Upper own s) (hs' : Shape box root AtRisk Upper own' s')
  (hmaps : Maps box AtRisk Upper pte own own' s s' a b) {places : Finset (ℕ × ℕ)}

include hs hs' hmaps

/-- Each page that `Box::new` returned became a table with a place of its own. -/
theorem boxes_le_card
    (hplaces : ∀ {t r}, own t = none → own' t = some r → r ∈ places) :
    s'.boxes - s.boxes ≤ places.card := by
  have hle := hmaps.boxes_le_supply
  have hnew : ∀ k ∈ Finset.Ico s.boxes s'.boxes, k < box.supply ∧ own (box.addr k) = none ∧
      ∃ r, own' (box.addr k) = some r := by
    intro k hk
    obtain ⟨hlo, hhi⟩ := Finset.mem_Ico.1 hk
    have hsupply : k < box.supply := by omega
    exact ⟨hsupply, hs.fresh hlo hsupply, Option.ne_none_iff_exists'.1 (hmaps.boxed hlo hhi)⟩
  rw [← Nat.card_Ico]
  refine Finset.card_le_card_of_injOn (fun k => (own' (box.addr k)).getD (0, 0)) ?_ ?_
  · intro k hk
    obtain ⟨-, hnone, r, hr⟩ := hnew k hk
    show (own' (box.addr k)).getD (0, 0) ∈ places
    rw [hr]
    exact hplaces hnone hr
  · intro j hj k hk heq
    obtain ⟨hjs, -, ⟨h, q⟩, hj⟩ := hnew j hj
    obtain ⟨hks, -, r, hk⟩ := hnew k hk
    have heq : (own' (box.addr j)).getD (0, 0) = (own' (box.addr k)).getD (0, 0) := heq
    rw [hj, hk] at heq
    obtain rfl : (h, q) = r := heq
    exact box.fresh j hjs k hks (hs'.unique hj hk)

omit hs hs' in
/-- For the tables that were added `Box::new` returned a page each. -/
theorem card_le_boxes (hplaces : ∀ r ∈ places, ∃ t, own t = none ∧ own' t = some r) :
    places.card ≤ s'.boxes - s.boxes := by
  rw [← Nat.card_Ico]
  refine Finset.card_le_card_of_surjOn (fun k => (own' (box.addr k)).getD (0, 0)) ?_
  intro r hr
  obtain ⟨t, hnone, ht⟩ := hplaces r hr
  obtain ⟨k, hlo, hhi, rfl⟩ := hmaps.new hnone (by rw [ht]; simp)
  refine ⟨k, Finset.mem_coe.2 (Finset.mem_Ico.2 ⟨hlo, hhi⟩), ?_⟩
  show (own' (box.addr k)).getD (0, 0) = r
  rw [ht]
  rfl

end Maps

/-- The number of tables that were added depends on the pages only. -/
theorem Shape.boxes_le_tablesFor (hs : Shape box root AtRisk Upper own s)
    (hs' : Shape box root AtRisk Upper own' s')
    (hmaps : Maps box AtRisk Upper pte own own' s s' a b) :
    s'.boxes ≤ s.boxes + tablesFor a b := by
  let places : Finset (ℕ × ℕ) := (Finset.range 3).biUnion fun h =>
    (Finset.Icc (a / 512 ^ (h + 1)) (b / 512 ^ (h + 1))).image fun q => (h, q)
  have hcard : places.card ≤ tablesFor a b := by
    refine Finset.card_biUnion_le.trans (Finset.sum_le_sum fun h _ => ?_)
    exact Finset.card_image_le.trans_eq (Nat.card_Icc _ _)
  have hle : s'.boxes - s.boxes ≤ places.card := by
    refine hmaps.boxes_le_card hs hs' ?_
    rintro t ⟨k, q⟩ hnone ht
    obtain ⟨n, hlo, hhi, -, rfl⟩ := hmaps.place hnone ht
    have hk : k < 3 := hs.height_lt_of_new hs' hnone ht
    refine Finset.mem_biUnion.2 ⟨k, Finset.mem_range.2 hk, Finset.mem_image.2 ⟨_, ?_, rfl⟩⟩
    exact Finset.mem_Icc.2 ⟨Nat.div_le_div_right hlo, Nat.div_le_div_right hhi⟩
  omega

section Range

variable (hs : Shape box root AtRisk Upper own s) (hs' : Shape box root AtRisk Upper own' s')
  {c : ℕ} (hmeets : ∀ n, a ≤ n → n < c → MeetsTables s.mem 3 root (4096 * n))

include hs hmeets

/-- The tables that are lacking for pages are not there. -/
theorem Shape.mem_lacking_root_iff (hlo : a ≤ n) (hhi : n < c) (hc : c ≤ 2 ^ 36) :
    (k, q) ∈ lacking s.mem 3 root n ↔ k < 3 ∧ q = n / 512 ^ (k + 1) ∧ ∀ t, own t ≠ some (k, q) :=
  -- the page numbers have 36 bits, so the root table is the one for all of them
  hs.mem_lacking_iff (by rw [hs.owns_root, Nat.div_eq_of_lt (by omega)]) (hmeets n hlo hhi)

include hs'

/-- When pages were mapped, all tables are there that they lacked. -/
theorem Shape.demand_le_boxes (hmaps : Maps box AtRisk Upper pte own own' s s' a b)
    (hcb : c ≤ b) (hc : c ≤ 2 ^ 36) : demand s.mem root a c ≤ s'.boxes - s.boxes := by
  refine hmaps.card_le_boxes ?_
  rintro ⟨k, q⟩ hr
  obtain ⟨n, hn, hlacking⟩ := Finset.mem_biUnion.1 hr
  obtain ⟨hlo, hhi⟩ := Finset.mem_Ico.1 hn
  obtain ⟨hk, rfl, hnone⟩ := (hs.mem_lacking_root_iff hmeets hlo hhi hc).1 hlacking
  obtain ⟨t, ht, -⟩ := hmaps.mapped hlo (hhi.trans_le hcb)
  have ht : own' t = some (0, n / 512 ^ (0 + 1)) := by rw [ht, Nat.zero_add, Nat.pow_one]
  obtain ⟨p, hp⟩ := hs'.ancestor ht (Nat.zero_le k) (by omega)
  refine ⟨p, ?_, hp⟩
  cases hold : own p with
  | none => rfl
  | some r =>
    obtain rfl := Option.some.inj ((hmaps.kept hold).symm.trans hp)
    exact absurd hold (hnone p)

/-- Where the pages at risk are among those of the range, every table that was added is one that the
range lacks. -/
theorem Shape.added_mem (hmaps : Maps box AtRisk Upper pte own own' s s' a b)
    (hrisk : ∀ n, AtRisk n → n < c) (hc : c ≤ 2 ^ 36) {r : ℕ × ℕ} (hnone : own t = none)
    (ht : own' t = some r) : r ∈ (Finset.Ico a c).biUnion (lacking s.mem 3 root) := by
  obtain ⟨k, q⟩ := r
  obtain ⟨n, hlo, -, hn, rfl⟩ := hmaps.place hnone ht
  have hk : k < 3 := hs.height_lt_of_new hs' hnone ht
  refine Finset.mem_biUnion.2 ⟨n, Finset.mem_Ico.2 ⟨hlo, hrisk n hn⟩, ?_⟩
  refine (hs.mem_lacking_root_iff hmeets hlo (hrisk n hn) hc).2 ⟨hk, rfl, fun t' ht' => ?_⟩
  rw [hs'.unique ht (hmaps.kept ht'), ht'] at hnone
  cases hnone

/-- Where the pages at risk are among those of the range, at most the tables were added that it
lacks. -/
theorem Shape.boxes_le_demand (hmaps : Maps box AtRisk Upper pte own own' s s' a b)
    (hrisk : ∀ n, AtRisk n → n < c) (hc : c ≤ 2 ^ 36) :
    s'.boxes - s.boxes ≤ demand s.mem root a c :=
  hmaps.boxes_le_card hs hs' fun hnone ht => hs.added_mem hs' hmeets hmaps hrisk hc hnone ht

/-- While a table is missing that the range lacks, fewer tables were added. -/
theorem Shape.boxes_lt_demand (hmaps : Maps box AtRisk Upper pte own own' s s' a b)
    (hrisk : ∀ n, AtRisk n → n < c) (hc : c ≤ 2 ^ 36) (hlo : a ≤ n) (hhi : n < c) (hk : k < 3)
    (hmissing : ∀ t, own' t ≠ some (k, n / 512 ^ (k + 1))) :
    s'.boxes - s.boxes < demand s.mem root a c := by
  have hmem : (k, n / 512 ^ (k + 1)) ∈ (Finset.Ico a c).biUnion (lacking s.mem 3 root) := by
    refine Finset.mem_biUnion.2 ⟨n, Finset.mem_Ico.2 ⟨hlo, hhi⟩, ?_⟩
    refine (hs.mem_lacking_root_iff hmeets hlo hhi hc).2 ⟨hk, rfl, fun t ht => ?_⟩
    exact hmissing t (hmaps.kept ht)
  refine lt_of_le_of_lt ?_ (Finset.card_erase_lt_of_mem hmem)
  refine hmaps.boxes_le_card hs hs' fun {t r} hnone ht => Finset.mem_erase.2 ⟨?_, ?_⟩
  · rintro rfl
    exact hmissing t ht
  · exact hs.added_mem hs' hmeets hmaps hrisk hc hnone ht

end Range

end Mushix
