import Mathlib.Data.List.Basic
import Mathlib.Order.Basic
import Mathlib.Order.Nat

/-!
# Tilings of intervals

A `Span` is a half-open interval of addresses. The elements of a list occupy a span each, by a
function `span`.

* `Tiles span r bs`: in list order the elements of `bs` fill `r` without a gap or an overlap;
* `TilesAll span rs bs`: the list falls into one tiling of every span of `rs`, in this order;
* `TilesAll.replace`: an element may be replaced by elements that tile its span;
* `TilesAll.pairwise_apart`: the elements of a tiling of disjoint spans are disjoint;
* `Finer span bs as`: every element of `bs` lies inside one of `as`.
-/

/-- The addresses from `lo` up to and without `hi`. -/
structure Span where
  lo : ℕ
  hi : ℕ
  deriving DecidableEq, Repr

namespace Span

instance : Membership ℕ Span where
  mem r x := r.lo ≤ x ∧ x < r.hi

/-- No address is in both spans (`apart_iff`). -/
def Apart (r r' : Span) : Prop := min r.hi r'.hi ≤ max r.lo r'.lo

/-- One span lies inside another. -/
def Within (r r' : Span) : Prop := r'.lo ≤ r.lo ∧ r.hi ≤ r'.hi

instance (x : ℕ) (r : Span) : Decidable (x ∈ r) :=
  inferInstanceAs (Decidable (r.lo ≤ x ∧ x < r.hi))

instance (r r' : Span) : Decidable (r.Apart r') :=
  inferInstanceAs (Decidable (min r.hi r'.hi ≤ max r.lo r'.lo))

instance (r r' : Span) : Decidable (r.Within r') :=
  inferInstanceAs (Decidable (r'.lo ≤ r.lo ∧ r.hi ≤ r'.hi))

variable {r r' t t' : Span} {x : ℕ}

theorem mem_def : x ∈ r ↔ r.lo ≤ x ∧ x < r.hi := Iff.rfl

/-- Spans are apart if they share no element. -/
theorem apart_iff : r.Apart r' ↔ ∀ x, x ∈ r → x ∉ r' := by
  constructor
  · intro h x hx hx'
    rw [Apart] at h
    rw [mem_def] at hx hx'
    omega
  · intro h
    by_contra hne
    have hx := h (max r.lo r'.lo)
    rw [Apart] at hne
    rw [mem_def, mem_def] at hx
    omega

theorem Apart.symm (h : r.Apart r') : r'.Apart r := by
  rw [Apart] at h ⊢
  omega

/-- Parts of spans that are apart are apart. -/
theorem Apart.of_within (h : r.Apart r') (ht : t.Within r) (ht' : t'.Within r') : t.Apart t' := by
  rw [Apart] at h ⊢
  rw [Within] at ht ht'
  omega

/-- Spans with elements that are apart are in order. -/
theorem Apart.le_or_le (h : r.Apart r') (hr : r.lo < r.hi) (hr' : r'.lo < r'.hi) :
    r.hi ≤ r'.lo ∨ r'.hi ≤ r.lo := by
  rw [Apart] at h
  omega

theorem Within.trans (h : r.Within r') (h' : r'.Within t) : r.Within t :=
  ⟨h'.1.trans h.1, h.2.trans h'.2⟩

theorem Within.mem (h : r.Within r') (hx : x ∈ r) : x ∈ r' :=
  ⟨h.1.trans hx.1, hx.2.trans_le h.2⟩

/-- The number of addresses in spans that are disjoint. -/
def total : List Span → ℕ
  | [] => 0
  | r :: rs => r.hi - r.lo + total rs

/-- The total of two lists is the sum of both. -/
theorem total_append (rs ts : List Span) : total (rs ++ ts) = total rs + total ts := by
  induction rs with
  | nil => rw [List.nil_append, total, Nat.zero_add]
  | cons r rs ih => rw [List.cons_append, total, ih, total, Nat.add_assoc]

end Span

namespace Tiling

variable {α : Type*} (span : α → Span)

/-- Each element begins where the one before ends, the first at `r.lo`, and the last ends at
`r.hi`. -/
def Tiles : Span → List α → Prop
  | r, [] => r.lo = r.hi
  | r, b :: bs => (span b).lo = r.lo ∧ r.lo < (span b).hi ∧ Tiles ⟨(span b).hi, r.hi⟩ bs

/-- The list consists of a tiling of the first span, a tiling of the second one and so on. -/
inductive TilesAll : List Span → List α → Prop where
  | nil : TilesAll [] []
  | cons {r : Span} {rs : List Span} {as bs : List α} (first : Tiles span r as)
      (rest : TilesAll rs bs) : TilesAll (r :: rs) (as ++ bs)

variable {span} {r : Span} {rs : List Span} {as bs cs : List α} {a b : α}

namespace Tiles

/-- An element with addresses tiles its own span. -/
theorem singleton (h : (span b).lo < (span b).hi) : Tiles span (span b) [b] := ⟨rfl, h, rfl⟩

/-- Two tilings of adjacent spans make one. -/
theorem append {lo mid hi : ℕ} (has : Tiles span ⟨lo, mid⟩ as) (hbs : Tiles span ⟨mid, hi⟩ bs) :
    Tiles span ⟨lo, hi⟩ (as ++ bs) := by
  induction as generalizing lo with
  | nil =>
    obtain rfl : lo = mid := has
    exact hbs
  | cons a as ih => exact ⟨has.1, has.2.1, ih has.2.2⟩

/-- A tiling can be cut behind any of its elements. -/
theorem cut {lo hi : ℕ} (h : Tiles span ⟨lo, hi⟩ (as ++ bs)) :
    ∃ mid, Tiles span ⟨lo, mid⟩ as ∧ Tiles span ⟨mid, hi⟩ bs := by
  induction as generalizing lo with
  | nil => exact ⟨lo, rfl, h⟩
  | cons a as ih =>
    obtain ⟨mid, has, hbs⟩ := ih h.2.2
    exact ⟨mid, ⟨h.1, h.2.1, has⟩, hbs⟩

theorem le (h : Tiles span r bs) : r.lo ≤ r.hi := by
  induction bs generalizing r with
  | nil => exact h.le
  | cons b bs ih => exact h.2.1.le.trans (ih h.2.2)

/-- Every element of a tiling has an address and lies inside the span. -/
theorem mem (h : Tiles span r bs) (hb : b ∈ bs) :
    (span b).lo < (span b).hi ∧ (span b).Within r := by
  induction bs generalizing r with
  | nil => cases hb
  | cons c bs ih =>
    obtain ⟨hlo, hpos, hrest⟩ := h
    rcases List.mem_cons.1 hb with rfl | hb
    · exact ⟨hlo ▸ hpos, hlo.ge, hrest.le⟩
    · obtain ⟨hpos', hin⟩ := ih hrest hb
      exact ⟨hpos', hpos.le.trans hin.1, hin.2⟩

theorem pairwise_apart (h : Tiles span r bs) :
    bs.Pairwise fun b c => (span b).Apart (span c) := by
  induction bs generalizing r with
  | nil => exact .nil
  | cons b bs ih =>
    refine .cons (fun c hc => ?_) (ih h.2.2)
    have hlo : (span b).hi ≤ (span c).lo := (h.2.2.mem hc).2.1
    rw [Span.Apart]
    omega

/-- The elements have all addresses of the span. -/
theorem total_eq (h : Tiles span r bs) : Span.total (bs.map span) = r.hi - r.lo := by
  induction bs generalizing r with
  | nil => exact (Nat.sub_eq_zero_of_le h.ge).symm
  | cons b bs ih =>
    obtain ⟨hlo, hpos, hrest⟩ := h
    have hle : (span b).hi ≤ r.hi := hrest.le
    rw [List.map_cons, Span.total, ih hrest, hlo]
    show (span b).hi - r.lo + (r.hi - (span b).hi) = r.hi - r.lo
    omega

/-- An element may be replaced by a tiling of its span. -/
theorem replace (h : Tiles span r (as ++ b :: bs)) (hcs : Tiles span (span b) cs) :
    Tiles span r (as ++ (cs ++ bs)) := by
  obtain ⟨mid, has, hlo, -, hbs⟩ := h.cut
  obtain rfl : (span b).lo = mid := hlo
  exact has.append (hcs.append hbs)

end Tiles

namespace TilesAll

/-- Every element of a tiling has an address and lies inside one of the spans. -/
theorem mem (h : TilesAll span rs bs) (hb : b ∈ bs) :
    (span b).lo < (span b).hi ∧ ∃ r ∈ rs, (span b).Within r := by
  induction h with
  | nil => cases hb
  | cons first _ ih =>
    rcases List.mem_append.1 hb with hb | hb
    · obtain ⟨hpos, hin⟩ := first.mem hb
      exact ⟨hpos, _, List.mem_cons_self, hin⟩
    · obtain ⟨hpos, r, hr, hin⟩ := ih hb
      exact ⟨hpos, r, List.mem_cons_of_mem _ hr, hin⟩

/-- The elements have all addresses of the spans. -/
theorem total_eq (h : TilesAll span rs bs) : Span.total (bs.map span) = Span.total rs := by
  induction h with
  | nil => rfl
  | cons first _ ih => rw [List.map_append, Span.total_append, first.total_eq, ih, Span.total]

/-- In a tiling of disjoint spans the elements are disjoint. -/
theorem pairwise_apart (h : TilesAll span rs bs) (hrs : rs.Pairwise Span.Apart) :
    bs.Pairwise fun b c => (span b).Apart (span c) := by
  induction h with
  | nil => exact .nil
  | cons first rest ih =>
    obtain ⟨hapart, hrs⟩ := List.pairwise_cons.1 hrs
    refine List.pairwise_append.2 ⟨first.pairwise_apart, ih hrs, fun b hb c hc => ?_⟩
    obtain ⟨-, t, ht, hin⟩ := rest.mem hc
    exact (hapart t ht).of_within (first.mem hb).2 hin

/-- An element may be replaced by a tiling of its span. -/
theorem replace {l : List α} (h : TilesAll span rs l) (hl : l = as ++ b :: bs)
    (hcs : Tiles span (span b) cs) : TilesAll span rs (as ++ (cs ++ bs)) := by
  induction h generalizing as bs with
  | nil => simp at hl
  | @cons r rs first rest hfirst hrest ih =>
    rcases List.append_eq_append_iff.1 hl with ⟨l, rfl, htail⟩ | ⟨l, rfl, htail⟩
    · -- the element lies in the rest
      rw [List.append_assoc]
      exact .cons hfirst (ih htail)
    · cases l with
      | nil =>
        have hnil : rest = [] ++ b :: bs := htail.symm
        have := TilesAll.cons hfirst (ih hnil)
        simpa using this
      | cons c l =>
        obtain ⟨rfl, rfl⟩ : b = c ∧ bs = l ++ rest := by simpa using htail
        have := TilesAll.cons (hfirst.replace hcs) hrest
        simpa using this

/-- A list with one element for every span tiles the spans. -/
theorem of_map {f : Span → α} (hspan : ∀ r ∈ rs, span (f r) = r) (hpos : ∀ r ∈ rs, r.lo < r.hi) :
    TilesAll span rs (rs.map f) := by
  induction rs with
  | nil => exact .nil
  | cons r rs ih =>
    have hr := hspan r List.mem_cons_self
    have hr' := hpos r List.mem_cons_self
    have hfirst : Tiles span (span (f r)) [f r] := .singleton (by rwa [hr])
    rw [hr] at hfirst
    exact .cons hfirst (ih (fun t ht => hspan t (List.mem_cons_of_mem r ht))
      fun t ht => hpos t (List.mem_cons_of_mem r ht))

end TilesAll

/-- Every element of the first list lies inside one of the second. -/
def Finer (span : α → Span) (bs as : List α) : Prop :=
  ∀ b ∈ bs, ∃ a ∈ as, (span b).Within (span a)

namespace Finer

theorem refl (span : α → Span) (as : List α) : Finer span as as :=
  fun a ha => ⟨a, ha, le_rfl, le_rfl⟩

theorem trans (h : Finer span cs bs) (h' : Finer span bs as) : Finer span cs as := by
  intro c hc
  obtain ⟨b, hb, hin⟩ := h c hc
  obtain ⟨a, ha, hin'⟩ := h' b hb
  exact ⟨a, ha, hin.trans hin'⟩

/-- Replacing an element by parts of it makes a list finer. -/
theorem replace (h : ∀ c ∈ cs, (span c).Within (span b)) :
    Finer span (as ++ (cs ++ bs)) (as ++ b :: bs) := by
  intro c hc
  rcases List.mem_append.1 hc with hc | hc
  · exact ⟨c, List.mem_append_left _ hc, le_rfl, le_rfl⟩
  rcases List.mem_append.1 hc with hc | hc
  · exact ⟨b, List.mem_append_right _ List.mem_cons_self, h c hc⟩
  · exact ⟨c, List.mem_append_right _ (List.mem_cons_of_mem b hc), le_rfl, le_rfl⟩

end Finer

end Tiling
